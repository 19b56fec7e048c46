import AllRelay.Hub.Lifecycle

/-!
# The display-off debt of the hub

An automatic OFF leaves the phone's panel dark until an automatic ON undoes it. The hub remembers
this debt in `displayPowerOff`, across replaced routes, failed restores and new sessions.

* `display_debt` ties the flag to the history of the writes: it is set exactly when an automatic
  OFF succeeded that no automatic ON has followed (`OffOutstanding`).
* `DebtInv` is the invariant behind it. The debt alone is not inductive: a second header of one
  session finds `displayOffSent` set and sets the flag without writing, which is right only because
  an OFF that succeeded on the *current* route is still owed (`DebtInv.owed`), since every restore
  detaches the route first.
-/

namespace AllRelay.Hub

/-! ### The history of the automatic writes -/

/-- The automatic display writes that succeeded, oldest first. -/
def displayWrites (h : Hub) : List Bool :=
  h.writes.filterMap fun
    | (_, .display on, true) => some on
    | _ => none

/-- How often an automatic OFF succeeded on a route. -/
def offWrites (h : Hub) (r : RouteId) : ℕ :=
  h.writes.countP fun w ↦ w = (r, .display false, true)

/-- An OFF succeeded and no ON succeeded after it. -/
def OffOutstanding (writes : List Bool) : Prop :=
  ∃ before after, writes = before ++ false :: after ∧ true ∉ after

theorem not_offOutstanding_nil : ¬OffOutstanding [] := by
  rintro ⟨before, after, h, -⟩
  simp at h

theorem offOutstanding_append_off (writes : List Bool) : OffOutstanding (writes ++ [false]) :=
  ⟨writes, [], rfl, List.not_mem_nil⟩

theorem not_offOutstanding_append_on (writes : List Bool) : ¬OffOutstanding (writes ++ [true]) := by
  rintro ⟨before, after, h, hon⟩
  rcases List.eq_nil_or_concat after with rfl | ⟨after, b, rfl⟩
  · have := List.append_inj_right' h rfl
    simp at this
  · rw [List.concat_eq_append, ← List.cons_append, ← List.append_assoc] at h
    have hb : [true] = [b] := List.append_inj_right' h rfl
    rw [List.concat_eq_append, ← hb] at hon
    exact hon (List.mem_append_right _ List.mem_cons_self)

@[simp]
theorem displayWrites_recordWrite_off (h : Hub) (r : RouteId) :
    (h.recordWrite r (.display false) true).displayWrites = h.displayWrites ++ [false] := by
  simp [displayWrites, recordWrite]

@[simp]
theorem displayWrites_recordWrite_on (h : Hub) (r : RouteId) :
    (h.recordWrite r (.display true) true).displayWrites = h.displayWrites ++ [true] := by
  simp [displayWrites, recordWrite]

@[simp]
theorem displayWrites_recordWrite_failed (h : Hub) (r : RouteId) (w : RouteWrite) :
    (h.recordWrite r w false).displayWrites = h.displayWrites := by
  simp [displayWrites, recordWrite]

theorem offWrites_recordWrite (h : Hub) (r r' : RouteId) (w : RouteWrite) (ok : Bool) :
    (h.recordWrite r w ok).offWrites r' =
      h.offWrites r' + if (r, w, ok) = (r', .display false, true) then 1 else 0 := by
  simp [offWrites, recordWrite, List.countP_append, List.countP_cons]

/-! ### The invariant -/

/-- The invariant of the lifecycle operations. -/
structure DebtInv (h : Hub) : Prop where
  /-- The flag is the debt. -/
  debt : h.displayPowerOff = true ↔ OffOutstanding h.displayWrites
  /-- `displayOffSent` counts the successful OFF writes of a route. -/
  offs : ∀ r, h.offWrites r = (h.route r).displayOffSent.toNat
  /-- A route index that is not allocated yet carries no OFF. -/
  fresh : ∀ r, h.nextRoute ≤ r → (h.route r).displayOffSent = false
  /-- The control route is an open route of the active generation. -/
  current : ∀ r, h.controlRoute = some r → h.screenActive = true ∧ r < h.nextRoute ∧
    (h.route r).closed = false ∧ (h.route r).generation = h.screenGeneration
  /-- An OFF sent on the control route is still owed. -/
  owed : ∀ r, h.controlRoute = some r → (h.route r).displayOffSent = true →
    h.displayPowerOff = true
  /-- A header is ready only in an active session. -/
  header : h.screenHeaderReady = true → h.screenActive = true
  /-- OFF is desired throughout a session and only then. -/
  desired : h.displayOffDesired = h.screenActive

theorem debtInv_newHub : DebtInv newHub where
  debt := by simpa [newHub, displayWrites] using not_offOutstanding_nil
  offs r := by simp [newHub, offWrites]
  fresh _ _ := rfl
  current r hr := by simp [newHub] at hr
  owed r hr := by simp [newHub] at hr
  header h := by simp [newHub] at h
  desired := rfl

variable {h : Hub}

/-! ### The sections keep the invariant -/

theorem DebtInv.endScreenSessionLocked (hi : DebtInv h) : DebtInv h.endScreenSessionLocked.1 where
  debt := hi.debt
  offs := hi.offs
  fresh := hi.fresh
  current r hr := by simp [Hub.endScreenSessionLocked] at hr
  owed r hr := by simp [Hub.endScreenSessionLocked] at hr
  header hh := by simp [Hub.endScreenSessionLocked] at hh
  desired := rfl

theorem DebtInv.clearReplay (hi : DebtInv h) : DebtInv h.clearReplay :=
  ⟨hi.debt, hi.offs, hi.fresh, hi.current, hi.owed, hi.header, hi.desired⟩

/-- The header part of `SetScreenSession` keeps the invariant in an active session. -/
theorem DebtInv.acceptHeader (hi : DebtInv h) (ha : h.screenActive = true)
    (session : ScreenSession) :
    DebtInv (((h.cacheSession session).markHeaderReady).broadcastEvent (.screenSession session)) :=
  ⟨hi.debt, hi.offs, hi.fresh, hi.current, hi.owed, fun _ ↦ ha, hi.desired⟩

/-- Closing a route that is not the control route keeps the invariant. -/
theorem DebtInv.close (hi : DebtInv h) (hc : h.controlRoute = none) (route : Option RouteId) :
    DebtInv (h.close route) := by
  have hnone : ∀ r, h.controlRoute ≠ some r := fun r hr ↦ by rw [hc] at hr; cases hr
  rw [close_eq]
  refine ⟨hi.debt, fun r ↦ (hi.offs r).trans ?_, fun r hr ↦ ?_, fun r hr ↦ absurd hr (hnone r),
    fun r hr ↦ absurd hr (hnone r), hi.header, hi.desired⟩
  · rw [close_route_displayOffSent]
  · rw [close_route_displayOffSent]
    exact hi.fresh r hr

/-- A failed write keeps the invariant. -/
theorem DebtInv.recordWrite_failed (hi : DebtInv h) (r : RouteId) (w : RouteWrite) :
    DebtInv (h.recordWrite r w false) := by
  refine ⟨?_, fun r' ↦ ?_, hi.fresh, hi.current, hi.owed, hi.header, hi.desired⟩
  · rw [displayWrites_recordWrite_failed]
    exact hi.debt
  · rw [offWrites_recordWrite, hi.offs]
    simp [recordWrite]

/-- A restore through a detached route keeps the invariant. -/
theorem DebtInv.restoreDisplay (hi : DebtInv h) (hc : h.controlRoute = none)
    (route : Option RouteId) (ok : Bool) : DebtInv (h.restoreDisplay route ok).1 := by
  have hnone : ∀ r, h.controlRoute ≠ some r := fun r hr ↦ by rw [hc] at hr; cases hr
  rcases h.restoreDisplay_cases route ok with
    ⟨err, he, -⟩ | ⟨r, -, -, -, he⟩ | ⟨r, -, -, -, he⟩ <;> rw [he]
  · exact hi
  · exact hi.recordWrite_failed r _
  · refine ⟨?_, fun r' ↦ ?_, hi.fresh, fun r' hr' ↦ absurd hr' (hnone r'),
      fun r' hr' ↦ absurd hr' (hnone r'), hi.header, hi.desired⟩
    · have hon := not_offOutstanding_append_on h.displayWrites
      rw [← displayWrites_recordWrite_on h r] at hon
      exact iff_of_false (by simp [setDisplayPowerOff]) hon
    · exact (offWrites_recordWrite h r r' (.display true) true).trans (by simp [hi.offs,
        setDisplayPowerOff, recordWrite])

/-- An automatic OFF on the control route keeps the invariant. -/
theorem DebtInv.turnDisplayOff (hi : DebtInv h) {r : RouteId} (hr : h.controlRoute = some r)
    (ok : Bool) : DebtInv (h.turnDisplayOff r ok).1 := by
  obtain ⟨-, hlt, hopen, -⟩ := hi.current r hr
  rcases turnDisplayOff_cases hopen ok with ⟨hs, he⟩ | ⟨hs, -, he⟩ | ⟨hs, -, he⟩ <;> rw [he]
  · -- Nothing is written: the OFF sent on this route before is still owed.
    have hoff : h.setDisplayPowerOff true = h := by rw [← hi.owed r hr hs]; rfl
    rw [hoff]
    exact hi
  · exact hi.recordWrite_failed r _
  · refine ⟨?_, fun r' ↦ ?_, fun r' hr' ↦ ?_, fun r' hr' ↦ ?_, fun _ _ _ ↦ rfl, hi.header,
      hi.desired⟩
    · have hoff := offOutstanding_append_off h.displayWrites
      rw [← displayWrites_recordWrite_off h r] at hoff
      exact iff_of_true rfl hoff
    · have hw := offWrites_recordWrite h r r' (.display false) true
      refine Eq.trans hw ?_
      by_cases hrr : r' = r
      · subst hrr
        simp [hi.offs, hs, setDisplayPowerOff, markOffSent]
      · have hne : r ≠ r' := fun h ↦ hrr h.symm
        simp [hi.offs, setDisplayPowerOff, markOffSent, recordWrite, hrr, hne]
    · have hne : r' ≠ r := fun he ↦ by subst he; exact absurd hr' (Nat.not_le.2 hlt)
      simpa [setDisplayPowerOff, markOffSent, recordWrite, hne] using hi.fresh r' hr'
    · obtain ⟨ha, hl, ho, hg⟩ := hi.current r' hr'
      refine ⟨ha, hl, ?_, ?_⟩ <;> by_cases hrr : r' = r <;>
        simp_all [setDisplayPowerOff, markOffSent, recordWrite]

/-! ### The operations keep the invariant -/

@[simp]
theorem restoreDisplay_controlRoute (h : Hub) (route : Option RouteId) (ok : Bool) :
    (h.restoreDisplay route ok).1.controlRoute = h.controlRoute := by
  rcases h.restoreDisplay_cases route ok with
    ⟨err, he, -⟩ | ⟨r, -, -, -, he⟩ | ⟨r, -, -, -, he⟩ <;> rw [he] <;> rfl

theorem DebtInv.startGeneration (hi : DebtInv h) : DebtInv h.startGeneration where
  debt := hi.debt
  offs := hi.offs
  fresh := hi.fresh
  current r hr := by simp [Hub.startGeneration, Hub.clearReplay] at hr
  owed r hr := by simp [Hub.startGeneration, Hub.clearReplay] at hr
  header hh := by simp [Hub.startGeneration, Hub.clearReplay] at hh
  desired := rfl

theorem DebtInv.beginScreenSession (hi : DebtInv h) (ok : Bool) :
    DebtInv (h.beginScreenSession ok).1 := by
  unfold Hub.beginScreenSession
  refine DebtInv.startGeneration ?_
  split
  · have hr := hi.endScreenSessionLocked.restoreDisplay rfl h.controlRoute ok
    exact hr.close (restoreDisplay_controlRoute _ _ _) _
  · exact hi

theorem DebtInv.setScreenSession (hi : DebtInv h) (generation : ℕ) (session : ScreenSession)
    (ok : Bool) : DebtInv (h.setScreenSession generation session ok).1 := by
  unfold Hub.setScreenSession
  split
  · rename_i ha
    have hh := hi.acceptHeader (accepts_iff.1 ha).1 session
    dsimp only
    split
    · rename_i r hr
      split
      · exact hh.turnDisplayOff hr ok
      · exact hh
    · exact hh
  · exact hi

theorem DebtInv.endScreenSession (hi : DebtInv h) (generation : ℕ) (ok : Bool) :
    DebtInv (h.endScreenSession generation ok).1 := by
  unfold Hub.endScreenSession
  split
  · have hr := hi.endScreenSessionLocked.clearReplay.restoreDisplay rfl h.controlRoute ok
    exact hr.close (restoreDisplay_controlRoute _ _ _) _
  · exact hi

/-- Replacing the control route in an active session keeps the invariant. -/
theorem DebtInv.replaceRoute (hi : DebtInv h) (ha : h.screenActive = true) :
    DebtInv ((h.close h.controlRoute).installRoute h.screenGeneration) := by
  rw [close_eq]
  refine ⟨hi.debt, fun r ↦ ?_, fun r hr ↦ ?_, fun r hr ↦ ?_, fun r hr hs ↦ ?_, fun _ ↦ ha,
    hi.desired⟩
  · refine (hi.offs r).trans ?_
    by_cases hr : r = h.nextRoute
    · subst hr; simp [installRoute, hi.fresh h.nextRoute (Nat.le_refl _)]
    · simp [installRoute, hr]
  · have hne : r ≠ h.nextRoute := Nat.ne_of_gt hr
    simpa [installRoute, hne] using hi.fresh r (Nat.le_of_lt hr)
  · obtain rfl : h.nextRoute = r := Option.some.inj hr
    exact ⟨ha, Nat.lt_succ_self _, by simp [installRoute], by simp [installRoute]⟩
  · obtain rfl : h.nextRoute = r := Option.some.inj hr
    simp [installRoute] at hs

theorem DebtInv.registerControlRoute (hi : DebtInv h) (generation : ℕ) (ok : Bool) :
    DebtInv (h.registerControlRoute generation ok).1 := by
  unfold Hub.registerControlRoute
  split
  · rename_i hacc
    obtain ⟨ha, rfl⟩ := accepts_iff.1 hacc
    have hr := hi.replaceRoute ha
    dsimp only
    split
    · exact hr
    · exact hr.turnDisplayOff rfl ok
  · exact hi

theorem DebtInv.clearControlRoute (hi : DebtInv h) (route : Option RouteId) :
    DebtInv (h.clearControlRoute route) := by
  unfold Hub.clearControlRoute detachRoute
  by_cases hr : h.controlRoute = route
  · have hd : DebtInv { h with controlRoute := none } :=
      ⟨hi.debt, hi.offs, hi.fresh, fun r h ↦ by simp at h, fun r h ↦ by simp at h, hi.header,
        hi.desired⟩
    simpa [hr] using hd.close rfl route
  · simpa [hr] using hi

theorem DebtInv.call (hi : DebtInv h) (c : Call) : DebtInv (h.call c) := by
  cases c with
  | beginSession ok => exact hi.beginScreenSession ok
  | setSession generation session ok => exact hi.setScreenSession generation session ok
  | register generation ok => exact hi.registerControlRoute generation ok
  | clear route => exact hi.clearControlRoute route
  | endSession generation ok => exact hi.endScreenSession generation ok

/-- **The invariant holds after every sequence of calls.** -/
theorem debtInv_run (calls : List Call) : DebtInv (run calls) :=
  run_induction debtInv_newHub (fun _ c hi ↦ hi.call c) calls

/-- Ordinary control input is no display write. -/
theorem DebtInv.writeControl (hi : DebtInv h) (data : Bytes) (ok : Bool) :
    DebtInv (h.writeControl data ok).1 := by
  have hrecord (r : RouteId) : DebtInv (h.recordWrite r (.control data) ok) := by
    have hdisplay : (h.recordWrite r (.control data) ok).displayWrites = h.displayWrites := by
      simp [displayWrites, recordWrite]
    refine ⟨?_, fun r' ↦ ?_, hi.fresh, hi.current, hi.owed, hi.header, hi.desired⟩
    · rw [hdisplay]
      exact hi.debt
    · rw [offWrites_recordWrite, hi.offs]
      simp [recordWrite]
  unfold Hub.writeControl
  split
  · exact hi
  · split
    · exact hi
    · exact hrecord _

theorem DebtInv.broadcastScreenFrame (hi : DebtInv h) (generation : ℕ) (data : Bytes) :
    DebtInv (h.broadcastScreenFrame generation data).1 := by
  unfold Hub.broadcastScreenFrame
  split
  · unfold publishFrame offerFrame cacheFrame
    split <;> exact ⟨hi.debt, hi.offs, hi.fresh, hi.current, hi.owed, hi.header, hi.desired⟩
  · exact hi

/-- Every call of the hub keeps the invariant. -/
theorem DebtInv.perform (hi : DebtInv h) (ok : Bool) (op : Op) : DebtInv (h.perform ok op) := by
  cases op with
  | beginSession => exact hi.beginScreenSession ok
  | setSession generation session => exact hi.setScreenSession generation session ok
  | register generation => exact hi.registerControlRoute generation ok
  | clear route => exact hi.clearControlRoute route
  | endSession generation => exact hi.endScreenSession generation ok
  | write data => exact hi.writeControl data ok
  | frame generation data => exact hi.broadcastScreenFrame generation data

/-! ### What a call writes -/

theorem restoreDisplay_writes (h : Hub) (route : Option RouteId) (ok : Bool) :
    ∃ new, (h.restoreDisplay route ok).1.writes = h.writes ++ new ∧
      ∀ w ∈ new, w.2.1 = .display true := by
  rcases h.restoreDisplay_cases route ok with
    ⟨err, he, -⟩ | ⟨r, -, -, -, he⟩ | ⟨r, -, -, -, he⟩ <;> rw [he]
  · exact ⟨[], by simp, by simp⟩
  · exact ⟨_, rfl, by simp⟩
  · exact ⟨_, rfl, by simp⟩

/-- An automatic OFF changes nothing in the lifecycle but the debt. -/
theorem turnDisplayOff_spec {r : RouteId} (hr : (h.route r).closed = false) (ok : Bool) :
    (∃ new, (h.turnDisplayOff r ok).1.writes = h.writes ++ new ∧ ∀ w ∈ new, w.1 = r) ∧
      (h.turnDisplayOff r ok).1.screenActive = h.screenActive ∧
      (h.turnDisplayOff r ok).1.screenHeaderReady = h.screenHeaderReady ∧
      (h.turnDisplayOff r ok).1.controlRoute = h.controlRoute ∧
      (h.turnDisplayOff r ok).1.screenGeneration = h.screenGeneration := by
  rcases turnDisplayOff_cases hr ok with ⟨-, he⟩ | ⟨-, -, he⟩ | ⟨-, -, he⟩ <;> rw [he]
  · exact ⟨⟨[], by simp [setDisplayPowerOff], by simp⟩, rfl, rfl, rfl, rfl⟩
  · exact ⟨⟨_, rfl, by simp⟩, rfl, rfl, rfl, rfl⟩
  · exact ⟨⟨_, rfl, by simp⟩, rfl, rfl, rfl, rfl⟩

/-- The circumstances in which an automatic OFF may be written on a route. -/
structure MayTurnOff (h : Hub) (r : RouteId) : Prop where
  /-- A screen session is active. -/
  active : h.screenActive = true
  /-- Its stream header was received. -/
  header : h.screenHeaderReady = true
  /-- The route is registered. -/
  registered : h.controlRoute = some r
  /-- It is a route of that session's generation. -/
  generation : (h.route r).generation = h.screenGeneration

/-- The writes between two hubs: the automatic OFF writes among them are allowed at the later
one. -/
def WritesAllowed (h h' : Hub) : Prop :=
  ∃ new, h'.writes = h.writes ++ new ∧ ∀ w ∈ new, w.2.1 = .display false → MayTurnOff h' w.1

theorem WritesAllowed.of_eq {h h' : Hub} (hw : h'.writes = h.writes) : WritesAllowed h h' :=
  ⟨[], by rw [hw, List.append_nil], by simp⟩

theorem WritesAllowed.of_on {h h' : Hub} {new : List (RouteId × RouteWrite × Bool)}
    (hw : h'.writes = h.writes ++ new) (hon : ∀ w ∈ new, w.2.1 = .display true) :
    WritesAllowed h h' := by
  refine ⟨new, hw, fun w hmem hoff ↦ ?_⟩
  rw [hon w hmem] at hoff
  cases hoff

/-- An automatic OFF on the control route of a session whose header is there is allowed. -/
theorem writesAllowed_turnDisplayOff (hi : DebtInv h) {r : RouteId} (hr : h.controlRoute = some r)
    (hh : h.screenHeaderReady = true) (ok : Bool) : WritesAllowed h (h.turnDisplayOff r ok).1 := by
  obtain ⟨ha, -, hopen, -⟩ := hi.current r hr
  obtain ⟨⟨new, hnew, hw⟩, ha', hh', hc', -⟩ := turnDisplayOff_spec hopen ok
  have hi' := hi.turnDisplayOff hr ok
  refine ⟨new, hnew, fun w hmem _ ↦ ?_⟩
  obtain rfl := hw w hmem
  exact ⟨ha'.trans ha, hh'.trans hh, hc'.trans hr, (hi'.current _ (hc'.trans hr)).2.2.2⟩

/-- Where a display is restored and then something is closed, no automatic OFF is written. -/
theorem writesAllowed_restore {g h' : Hub} (route : Option RouteId) {ok : Bool}
    (hg : g.writes = h.writes)
    (hh' : h'.writes = ((g.restoreDisplay route ok).1.close route).writes) :
    WritesAllowed h h' := by
  obtain ⟨new, hw, hon⟩ := restoreDisplay_writes g route ok
  refine WritesAllowed.of_on ?_ hon
  rw [hh', close_eq, ← hg]
  exact hw

theorem writesAllowed_beginScreenSession (h : Hub) (ok : Bool) :
    WritesAllowed h (h.beginScreenSession ok).1 := by
  unfold Hub.beginScreenSession
  split
  · exact writesAllowed_restore (g := h.endScreenSessionLocked.1) h.controlRoute rfl rfl
  · exact WritesAllowed.of_eq rfl

theorem writesAllowed_endScreenSession (h : Hub) (generation : ℕ) (ok : Bool) :
    WritesAllowed h (h.endScreenSession generation ok).1 := by
  unfold Hub.endScreenSession
  split
  · exact writesAllowed_restore (g := h.endScreenSessionLocked.1.clearReplay) h.controlRoute rfl rfl
  · exact WritesAllowed.of_eq rfl

theorem writesAllowed_setScreenSession (hi : DebtInv h) (generation : ℕ) (session : ScreenSession)
    (ok : Bool) : WritesAllowed h (h.setScreenSession generation session ok).1 := by
  unfold Hub.setScreenSession
  split
  · rename_i hacc
    have hh := hi.acceptHeader (accepts_iff.1 hacc).1 session
    dsimp only
    split
    · rename_i r hr
      split
      · exact writesAllowed_turnDisplayOff hh hr rfl ok
      · exact WritesAllowed.of_eq rfl
    · exact WritesAllowed.of_eq rfl
  · exact WritesAllowed.of_eq rfl

theorem writesAllowed_registerControlRoute (hi : DebtInv h) (generation : ℕ) (ok : Bool) :
    WritesAllowed h (h.registerControlRoute generation ok).1 := by
  have hclose : ((h.close h.controlRoute).installRoute generation).writes = h.writes := by
    rw [close_eq]
    rfl
  unfold Hub.registerControlRoute
  split
  · rename_i hacc
    obtain ⟨ha, rfl⟩ := accepts_iff.1 hacc
    dsimp only
    split
    · exact WritesAllowed.of_eq hclose
    · rename_i hready
      simp only [Bool.or_eq_true, Bool.not_eq_true', not_or, Bool.not_eq_false] at hready
      obtain ⟨new, hw, hoff⟩ := writesAllowed_turnDisplayOff (hi.replaceRoute ha) rfl hready.1 ok
      exact ⟨new, hw.trans (by rw [hclose]), hoff⟩
  · exact WritesAllowed.of_eq rfl

theorem writesAllowed_clearControlRoute (h : Hub) (route : Option RouteId) :
    WritesAllowed h (h.clearControlRoute route) := by
  refine WritesAllowed.of_eq ?_
  unfold Hub.clearControlRoute detachRoute
  by_cases hr : h.controlRoute = route
  · simp only [hr, if_true]
    rw [close_eq]
  · simp [hr]

/-- **What one call writes**: every automatic OFF among the new writes is allowed. -/
theorem writesAllowed_call (hi : DebtInv h) (c : Call) : WritesAllowed h (h.call c) := by
  cases c with
  | beginSession ok => exact writesAllowed_beginScreenSession h ok
  | setSession generation session ok =>
    exact writesAllowed_setScreenSession hi generation session ok
  | register generation ok => exact writesAllowed_registerControlRoute hi generation ok
  | clear route => exact writesAllowed_clearControlRoute h route
  | endSession generation ok => exact writesAllowed_endScreenSession h generation ok

/-! ### The lifecycle flags and the history of the calls -/

/-- The calls since the last `BeginScreenSession`. -/
def sinceBegin (calls : List Call) : List Call :=
  calls.foldl (fun since c ↦
    match c with
    | .beginSession _ => []
    | c => since ++ [c]) []

/-- The generation of the last `BeginScreenSession`: how often it was called. -/
def lastGeneration (calls : List Call) : ℕ :=
  calls.countP fun c ↦ c matches .beginSession _

/-- A session was begun and not ended. -/
def SessionActive (calls : List Call) : Prop :=
  0 < lastGeneration calls ∧ ∀ ok, .endSession (lastGeneration calls) ok ∉ sinceBegin calls

/-- The stream header of the last generation was received. -/
def HeaderReceived (calls : List Call) : Prop :=
  ∃ session ok, .setSession (lastGeneration calls) session ok ∈ sinceBegin calls

/-- The generation, the active flag and the header flag. -/
def lifecycle (h : Hub) : ℕ × Bool × Bool :=
  (h.screenGeneration, h.screenActive, h.screenHeaderReady)

theorem lifecycle_close (h : Hub) (route : Option RouteId) :
    (h.close route).lifecycle = h.lifecycle := by
  rw [close_eq]
  rfl

theorem lifecycle_restoreDisplay (h : Hub) (route : Option RouteId) (ok : Bool) :
    (h.restoreDisplay route ok).1.lifecycle = h.lifecycle := by
  rcases h.restoreDisplay_cases route ok with
    ⟨err, he, -⟩ | ⟨r, -, -, -, he⟩ | ⟨r, -, -, -, he⟩ <;> rw [he] <;> rfl

theorem lifecycle_turnDisplayOff (h : Hub) (r : RouteId) (ok : Bool) :
    (h.turnDisplayOff r ok).1.lifecycle = h.lifecycle := by
  unfold turnDisplayOff sendDisplayOff
  split_ifs <;> rfl

/-- **The lifecycle flags after a call.** -/
theorem lifecycle_call (h : Hub) (c : Call) :
    (h.call c).lifecycle =
      match c with
      | .beginSession _ => (h.screenGeneration + 1, true, false)
      | .setSession g _ _ =>
        (h.screenGeneration, h.screenActive, h.screenHeaderReady || h.accepts g)
      | .endSession g _ => if h.accepts g then (h.screenGeneration, false, false) else h.lifecycle
      | .register _ _ | .clear _ => h.lifecycle := by
  cases c with
  | beginSession ok =>
    have hstart : ∀ h' : Hub, h'.startGeneration.lifecycle = (h'.lifecycle.1 + 1, true, false) :=
      fun _ ↦ rfl
    show (h.beginScreenSession ok).1.lifecycle = (h.lifecycle.1 + 1, true, false)
    unfold Hub.beginScreenSession
    rw [hstart]
    split
    · rw [lifecycle_close, lifecycle_restoreDisplay]
      rfl
    · rfl
  | setSession generation session ok =>
    show (h.setScreenSession generation session ok).1.lifecycle =
      (h.screenGeneration, h.screenActive, h.screenHeaderReady || h.accepts generation)
    unfold Hub.setScreenSession
    split
    · rename_i hacc
      rw [hacc, Bool.or_true]
      dsimp only
      split
      · split
        · exact lifecycle_turnDisplayOff _ _ _
        · rfl
      · rfl
    · rename_i hacc
      rw [Bool.not_eq_true] at hacc
      rw [hacc, Bool.or_false]
      rfl
  | register generation ok =>
    show (h.registerControlRoute generation ok).1.lifecycle = _
    have hinst : ((h.close h.controlRoute).installRoute generation).lifecycle = h.lifecycle := by
      rw [close_eq]
      rfl
    unfold Hub.registerControlRoute
    split
    · dsimp only
      split
      · exact hinst
      · exact (lifecycle_turnDisplayOff _ _ _).trans hinst
    · rfl
  | clear route =>
    show (h.clearControlRoute route).lifecycle = _
    unfold Hub.clearControlRoute detachRoute
    by_cases hr : h.controlRoute = route
    · simp only [hr, if_true]
      exact lifecycle_close _ _
    · simp [hr]
  | endSession generation ok =>
    show (h.endScreenSession generation ok).1.lifecycle =
      if h.accepts generation then (h.screenGeneration, false, false) else h.lifecycle
    unfold Hub.endScreenSession
    by_cases hacc : h.accepts generation = true
    · rw [if_pos hacc, if_pos hacc]
      exact (lifecycle_close _ _).trans (lifecycle_restoreDisplay _ _ _)
    · rw [if_neg hacc, if_neg hacc]

/-- The flags of the hub say what the history of the calls says. -/
structure Agrees (h : Hub) (calls : List Call) : Prop where
  /-- The generation counts the sessions begun. -/
  generation : h.screenGeneration = lastGeneration calls
  /-- The active flag. -/
  active : h.screenActive = true ↔ SessionActive calls
  /-- The header flag. -/
  header : h.screenHeaderReady = true ↔ SessionActive calls ∧ HeaderReceived calls

theorem sinceBegin_append_begin (calls : List Call) (ok : Bool) :
    sinceBegin (calls ++ [.beginSession ok]) = [] := by
  simp [sinceBegin]

theorem sinceBegin_append {c : Call} (hc : ∀ ok, c ≠ .beginSession ok) (calls : List Call) :
    sinceBegin (calls ++ [c]) = sinceBegin calls ++ [c] := by
  cases c with
  | beginSession ok => exact absurd rfl (hc ok)
  | _ => simp [sinceBegin]

theorem lastGeneration_append {c : Call} (hc : ∀ ok, c ≠ .beginSession ok) (calls : List Call) :
    lastGeneration (calls ++ [c]) = lastGeneration calls := by
  cases c with
  | beginSession ok => exact absurd rfl (hc ok)
  | _ => simp [lastGeneration]

/-- A call that begins, announces and ends nothing agrees with the history if it keeps the flags. -/
theorem Agrees.of_neutral {calls : List Call} (ha : Agrees h calls) {c : Call}
    (hb : ∀ ok, c ≠ .beginSession ok) (hs : ∀ g session ok, c ≠ .setSession g session ok)
    (he : ∀ g ok, c ≠ .endSession g ok) (hl : (h.call c).lifecycle = h.lifecycle) :
    Agrees (h.call c) (calls ++ [c]) := by
  obtain ⟨hgen, hact, hhead⟩ := ha
  have hlast := lastGeneration_append hb calls
  have hsince := sinceBegin_append hb calls
  have hs' : ∀ g session ok, Call.setSession g session ok ≠ c := fun g session ok h ↦
    hs g session ok h.symm
  have he' : ∀ g ok, Call.endSession g ok ≠ c := fun g ok h ↦ he g ok h.symm
  simp only [lifecycle, Prod.mk.injEq] at hl
  refine ⟨hl.1.trans (by rw [hlast, hgen]), ?_, ?_⟩
  · simp [hl.2.1, hact, SessionActive, hlast, hsince, he']
  · simp [hl.2.2, hhead, SessionActive, HeaderReceived, hlast, hsince, hs', he']

theorem Agrees.beginSession {calls : List Call} (ha : Agrees h calls) (ok : Bool) :
    Agrees (h.call (.beginSession ok)) (calls ++ [.beginSession ok]) := by
  have hl := lifecycle_call h (.beginSession ok)
  simp only [lifecycle, Prod.mk.injEq] at hl
  have hlast : lastGeneration (calls ++ [.beginSession ok]) = lastGeneration calls + 1 := by
    simp [lastGeneration]
  refine ⟨hl.1.trans (by rw [hlast, ha.generation]), ?_, ?_⟩
  · simp [hl.2.1, SessionActive, hlast, sinceBegin_append_begin]
  · simp [hl.2.2, HeaderReceived, sinceBegin_append_begin]

theorem Agrees.accepts_iff {calls : List Call} (ha : Agrees h calls) (g : ℕ) :
    h.accepts g = true ↔ SessionActive calls ∧ g = lastGeneration calls := by
  rw [Hub.accepts_iff, ha.active, ha.generation]

/-- A header of the active generation sets the header flag. -/
theorem Agrees.setSession {calls : List Call} (ha : Agrees h calls) (g : ℕ)
    (session : ScreenSession) (ok : Bool) :
    Agrees (h.call (.setSession g session ok)) (calls ++ [.setSession g session ok]) := by
  have hacc := ha.accepts_iff g
  have hl := lifecycle_call h (.setSession g session ok)
  have hlast := lastGeneration_append (c := .setSession g session ok) (by simp) calls
  have hsince := sinceBegin_append (c := .setSession g session ok) (by simp) calls
  simp only [lifecycle, Prod.mk.injEq] at hl
  have hactive : SessionActive (calls ++ [.setSession g session ok]) ↔ SessionActive calls := by
    simp [SessionActive, hlast, hsince]
  refine ⟨hl.1.trans (by rw [hlast, ha.generation]), by rw [hl.2.1, ha.active, hactive], ?_⟩
  rw [hl.2.2, Bool.or_eq_true, ha.header, hacc, hactive]
  simp only [HeaderReceived, hlast, hsince, List.mem_append, List.mem_singleton,
    Call.setSession.injEq]
  constructor
  · rintro (⟨hs, session', ok', hmem⟩ | ⟨hs, rfl⟩)
    · exact ⟨hs, session', ok', Or.inl hmem⟩
    · exact ⟨hs, session, ok, Or.inr ⟨rfl, rfl, rfl⟩⟩
  · rintro ⟨hs, session', ok', hmem | ⟨rfl, -, -⟩⟩
    · exact Or.inl ⟨hs, session', ok', hmem⟩
    · exact Or.inr ⟨hs, rfl⟩

/-- Ending the active generation, and only that, clears both flags. -/
theorem Agrees.endSession {calls : List Call} (ha : Agrees h calls) (g : ℕ) (ok : Bool) :
    Agrees (h.call (.endSession g ok)) (calls ++ [.endSession g ok]) := by
  have hacc := ha.accepts_iff g
  have hl : (h.call (.endSession g ok)).lifecycle =
      if h.accepts g then (h.screenGeneration, false, false) else h.lifecycle :=
    lifecycle_call h (.endSession g ok)
  have hlast := lastGeneration_append (c := .endSession g ok) (by simp) calls
  have hsince := sinceBegin_append (c := .endSession g ok) (by simp) calls
  have hactive : SessionActive (calls ++ [.endSession g ok]) ↔
      SessionActive calls ∧ g ≠ lastGeneration calls := by
    simp only [SessionActive, hlast, hsince, List.mem_append, List.mem_singleton,
      Call.endSession.injEq, not_or, not_and, and_assoc]
    constructor
    · rintro ⟨hpos, hend⟩
      exact ⟨hpos, fun ok' ↦ (hend ok').1, fun hg ↦ (hend ok).2 hg.symm rfl⟩
    · rintro ⟨hpos, hend, hne⟩
      exact ⟨hpos, fun ok' ↦ ⟨hend ok', fun hg ↦ absurd hg.symm hne⟩⟩
  have hreceived : HeaderReceived (calls ++ [.endSession g ok]) ↔ HeaderReceived calls := by
    simp [HeaderReceived, hlast, hsince]
  by_cases hc : h.accepts g = true
  · rw [if_pos hc] at hl
    simp only [lifecycle, Prod.mk.injEq] at hl
    obtain ⟨-, hg⟩ := hacc.1 hc
    refine ⟨hl.1.trans (by rw [hlast, ha.generation]), ?_, ?_⟩
    · rw [hl.2.1, hactive]
      exact iff_of_false Bool.false_ne_true fun hs ↦ hs.2 hg
    · rw [hl.2.2, hactive]
      exact iff_of_false Bool.false_ne_true fun hs ↦ hs.1.2 hg
  · rw [if_neg hc] at hl
    simp only [lifecycle, Prod.mk.injEq] at hl
    have hne : SessionActive calls → g ≠ lastGeneration calls := fun hs hg ↦ hc (hacc.2 ⟨hs, hg⟩)
    refine ⟨hl.1.trans (by rw [hlast, ha.generation]), ?_, ?_⟩
    · rw [hl.2.1, ha.active, hactive]
      exact ⟨fun hs ↦ ⟨hs, hne hs⟩, And.left⟩
    · rw [hl.2.2, ha.header, hactive, hreceived]
      exact ⟨fun hs ↦ ⟨⟨hs.1, hne hs.1⟩, hs.2⟩, fun hs ↦ ⟨hs.1.1, hs.2⟩⟩

theorem Agrees.call {calls : List Call} (ha : Agrees h calls) (c : Call) :
    Agrees (h.call c) (calls ++ [c]) := by
  cases c with
  | beginSession ok => exact ha.beginSession ok
  | setSession g session ok => exact ha.setSession g session ok
  | register g ok => exact ha.of_neutral (by simp) (by simp) (by simp) (lifecycle_call h _)
  | clear route => exact ha.of_neutral (by simp) (by simp) (by simp) (lifecycle_call h _)
  | endSession g ok => exact ha.endSession g ok

/-- **The flags agree with the history of every sequence of calls.** -/
theorem agrees_run (calls : List Call) : Agrees (run calls) calls := by
  induction calls using List.reverseRecOn with
  | nil => refine ⟨rfl, ?_, ?_⟩ <;> simp [newHub, SessionActive, lastGeneration]
  | append_singleton calls c ih =>
    rw [run_append_singleton]
    exact ih.call c

/-! ### The debt -/

/-- A restore that returns nil leaves no debt. -/
theorem restoreDisplay_nil (hi : DebtInv h) {route : Option RouteId} {ok : Bool}
    (hnil : (h.restoreDisplay route ok).2 = none) :
    ¬OffOutstanding (h.restoreDisplay route ok).1.displayWrites := by
  rcases h.restoreDisplay_cases route ok with
    ⟨err, he, hoff⟩ | ⟨r, -, -, -, he⟩ | ⟨r, -, -, -, he⟩ <;> rw [he] at hnil ⊢
  · rw [← hi.debt, hoff hnil]
    exact Bool.false_ne_true
  · cases hnil
  · have hon := not_offOutstanding_append_on h.displayWrites
    rwa [← displayWrites_recordWrite_on h r] at hon

theorem endScreenSession_nil (hi : DebtInv h) {generation : ℕ} {ok : Bool}
    (hacc : h.accepts generation = true) (hnil : (h.endScreenSession generation ok).2 = none) :
    ¬OffOutstanding (h.endScreenSession generation ok).1.displayWrites := by
  have hi' := hi.endScreenSessionLocked.clearReplay
  unfold Hub.endScreenSession at hnil ⊢
  rw [if_pos hacc] at hnil ⊢
  have hw : ∀ (h' : Hub) (route : Option RouteId), (h'.close route).displayWrites =
      h'.displayWrites := fun h' route ↦ by rw [close_eq]; rfl
  dsimp only at hnil ⊢
  rw [hw]
  exact restoreDisplay_nil hi' hnil

/-- **The display-off debt.** After every sequence of lifecycle calls, `displayPowerOff` is set
exactly when an automatic OFF succeeded and no automatic ON after it, and on no route more than one
automatic OFF succeeded; ending the active generation leaves the display ON whenever it returns nil;
and the next call, whatever it is, writes an automatic OFF only in an active session whose header
was received, on the control route registered for that generation. -/
theorem display_debt (calls : List Call) :
    ((run calls).displayPowerOff = true ↔ OffOutstanding (run calls).displayWrites) ∧
    (∀ r, (run calls).offWrites r ≤ 1) ∧
    (∀ generation ok, (run calls).accepts generation = true →
      ((run calls).endScreenSession generation ok).2 = none →
      ¬OffOutstanding ((run calls).endScreenSession generation ok).1.displayWrites) ∧
    (∀ c, ∃ new, (run (calls ++ [c])).writes = (run calls).writes ++ new ∧
      ∀ w ∈ new, w.2.1 = .display false →
        SessionActive (calls ++ [c]) ∧ HeaderReceived (calls ++ [c]) ∧
        (run (calls ++ [c])).controlRoute = some w.1 ∧
        ((run (calls ++ [c])).route w.1).generation = lastGeneration (calls ++ [c])) := by
  have hi := debtInv_run calls
  refine ⟨hi.debt, fun r ↦ ?_, fun generation ok ↦ endScreenSession_nil hi, fun c ↦ ?_⟩
  · rw [hi.offs]
    cases ((run calls).route r).displayOffSent <;> decide
  · obtain ⟨new, hw, hoff⟩ := writesAllowed_call hi c
    obtain ⟨hgen, -, hhead⟩ := agrees_run (calls ++ [c])
    rw [run_append_singleton] at hgen hhead ⊢
    refine ⟨new, hw, fun w hmem hw ↦ ?_⟩
    have hmay := hoff w hmem hw
    obtain ⟨hs, hr⟩ := hhead.1 hmay.header
    exact ⟨hs, hr, hmay.registered, hmay.generation.trans hgen⟩

end AllRelay.Hub
