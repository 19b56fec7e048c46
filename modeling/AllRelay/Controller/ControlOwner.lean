import AllRelay.Controller.ControlFrame

/-!
# Who may act on the control slot

The controller's record names one screen worker at a time, the worker of the hub's session. Its
goroutine is the one that may act on the control slot (`Base`), and every step of the session keeps
it so.
-/

open LabelledSystem

namespace AllRelay

/-! ### The hub -/

namespace Hub

theorem endScreenSession_of_not_accepts {h : Hub} {gen : ℕ} (ha : h.accepts gen = false)
    (ok : Bool) : h.endScreenSession gen ok = (h, none) := by
  rw [endScreenSession, ha]
  rfl

/-- A restore changes nothing but the debt and the log of writes. -/
theorem restoreDisplay_fields (h : Hub) (route : Option RouteId) (ok : Bool) :
    (h.restoreDisplay route ok).1.screenActive = h.screenActive ∧
      (h.restoreDisplay route ok).1.screenGeneration = h.screenGeneration ∧
      (h.restoreDisplay route ok).1.controlRoute = h.controlRoute := by
  obtain ⟨err, heq, -⟩ | ⟨r, -, -, -, heq⟩ | ⟨r, -, -, -, heq⟩ :=
    h.restoreDisplay_cases route ok <;>
    rw [heq] <;> exact ⟨rfl, rfl, rfl⟩

/-- The end of the hub's session. -/
theorem endScreenSession_of_accepts {h : Hub} {gen : ℕ} (ha : h.accepts gen = true) (ok : Bool) :
    (h.endScreenSession gen ok).1.screenActive = false ∧
      (h.endScreenSession gen ok).1.screenGeneration = h.screenGeneration ∧
      (h.endScreenSession gen ok).1.controlRoute = none := by
  rw [endScreenSession, ha]
  simp only [if_true]
  rw [close_eq]
  exact restoreDisplay_fields _ _ _

theorem registerControlRoute_of_not_accepts {h : Hub} {gen : ℕ} (ha : h.accepts gen = false)
    (ok : Bool) : h.registerControlRoute gen ok = (h, none, none) := by
  rw [registerControlRoute, ha]
  rfl

/-- The routes of a hub are kept, with what they were registered for. -/
structure SameRoute (h h' : Hub) : Prop where
  /-- The hub's session is kept. -/
  session : h'.screenActive = h.screenActive ∧ h'.screenGeneration = h.screenGeneration
  /-- The registered route is kept. -/
  controlRoute : h'.controlRoute = h.controlRoute
  /-- No route is retired. -/
  route : ∀ r, (h'.route r).generation = (h.route r).generation ∧
    (h'.route r).closed = (h.route r).closed

theorem SameRoute.refl (h : Hub) : SameRoute h h :=
  ⟨⟨rfl, rfl⟩, rfl, fun _ ↦ ⟨rfl, rfl⟩⟩

/-- An automatic OFF keeps the routes. -/
theorem SameRoute.turnDisplayOff {h h' : Hub} (hs : SameRoute h h') (r : RouteId) (ok : Bool) :
    SameRoute h (h'.turnDisplayOff r ok).1 := by
  rw [Hub.turnDisplayOff, sendDisplayOff]
  split
  · rename_i heq
    split at heq
    · cases heq
    split at heq
    · cases heq
      exact { hs with }
    split at heq <;> cases heq
    refine { hs with route := fun r' ↦ ?_ }
    simp only [setDisplayPowerOff, markOffSent, recordWrite, Function.update_apply]
    split
    · rename_i hr'
      rw [hr']
      exact hs.route r
    · exact hs.route r'
  · rename_i heq
    split at heq
    · cases heq
      exact hs
    split at heq
    · cases heq
    split at heq <;> cases heq
    exact { hs with }

/-- A registration for the hub's session. -/
theorem registerControlRoute_of_accepts {h : Hub} {gen : ℕ} (ha : h.accepts gen = true)
    (ok : Bool) : ∃ h' err, h.registerControlRoute gen ok = (h', some h.nextRoute, err) ∧
      h'.screenActive = h.screenActive ∧ h'.screenGeneration = h.screenGeneration ∧
      h'.controlRoute = some h.nextRoute ∧ (h'.route h.nextRoute).generation = gen ∧
      (h'.route h.nextRoute).closed = false := by
  rw [registerControlRoute, ha]
  simp only [if_true]
  generalize hu : (h.close h.controlRoute).installRoute gen = u
  have hnext : u.nextRoute - 1 = h.nextRoute := by
    rw [← hu, close_eq]
    rfl
  have hroute : u.route h.nextRoute = ⟨gen, false, false⟩ := by
    rw [← hu, close_eq]
    exact Function.update_self ..
  have hfields : u.screenActive = h.screenActive ∧ u.screenGeneration = h.screenGeneration ∧
      u.controlRoute = some h.nextRoute := by
    rw [← hu, close_eq]
    exact ⟨rfl, rfl, rfl⟩
  obtain ⟨hactive, hgen, hcontrol⟩ := hfields
  rw [hnext]
  split
  · exact ⟨u, none, rfl, hactive, hgen, hcontrol, by rw [hroute], by rw [hroute]⟩
  · have hsame := (SameRoute.refl u).turnDisplayOff h.nextRoute ok
    refine ⟨_, _, rfl, hsame.session.1.trans hactive, hsame.session.2.trans hgen,
      hsame.controlRoute.trans hcontrol, ?_, ?_⟩
    · rw [(hsame.route _).1, hroute]
    · rw [(hsame.route _).2, hroute]

/-- A frame in the replay cache keeps the routes. -/
theorem SameRoute.cacheFrame (h : Hub) (data : Bytes) : SameRoute h (h.cacheFrame data) := by
  unfold Hub.cacheFrame
  split <;> exact { refl h with }

/-- The calls of the hub that come from outside the controller keep its routes. -/
theorem SameRoute.perform (h : Hub) {op : Op} (hop : ScreenControl.outside op = true) (ok : Bool) :
    SameRoute h (h.perform ok op) := by
  cases op with
  | setSession gen session =>
    show SameRoute h (h.setScreenSession gen session ok).1
    rw [setScreenSession]
    split
    · have hsame : SameRoute h
          (((h.cacheSession session).markHeaderReady).broadcastEvent (.screenSession session)) :=
        { refl h with }
      simp only
      split
      · split
        · exact hsame.turnDisplayOff _ ok
        · exact hsame
      · exact hsame
    · exact refl h
  | write data =>
    show SameRoute h (h.writeControl data ok).1
    rw [writeControl]
    split
    · exact refl h
    · split
      · exact refl h
      · exact { refl h with }
  | frame gen data =>
    show SameRoute h (h.broadcastScreenFrame gen data).1
    rw [broadcastScreenFrame]
    split
    · exact { SameRoute.cacheFrame h data with }
    · exact refl h
  | beginSession | register _ | clear _ | endSession _ => cases hop

end Hub

namespace Server.EndsSession

variable {h h' : Hub}

/-- Nothing happens to a hub without a session. -/
theorem eq_of_inactive (he : EndsSession h h') (ha : h.screenActive = false) : h' = h := by
  obtain ⟨gen, ok, rfl, -⟩ := he
  rw [Hub.endScreenSession_of_not_accepts]
  rw [Hub.accepts, ha]
  rfl

theorem of_active (he : EndsSession h h') (ha : h.screenActive = true) :
    ∃ ok, h' = (h.endScreenSession h.screenGeneration ok).1 := by
  obtain ⟨gen, ok, rfl, hgen⟩ := he
  exact ⟨ok, by rw [hgen ha]⟩

/-- The hub has no session afterwards. -/
theorem spec (he : EndsSession h h') : h'.screenActive = false ∧
    h'.screenGeneration = h.screenGeneration ∧
    (h.screenActive = true ∨ h.controlRoute = none → h'.controlRoute = none) := by
  by_cases ha : h.screenActive = true
  · obtain ⟨ok, rfl⟩ := he.of_active ha
    obtain ⟨h1, h2, h3⟩ := Hub.endScreenSession_of_accepts (Hub.accepts_iff.2 ⟨ha, rfl⟩) ok
    exact ⟨h1, h2, fun _ ↦ h3⟩
  · rw [he.eq_of_inactive (eq_false_of_ne_true ha)]
    exact ⟨eq_false_of_ne_true ha, rfl, fun h ↦ h.resolve_left ha⟩

end Server.EndsSession

/-- The begin of a session on a hub that has none. -/
theorem Hub.beginScreenSession_of_inactive {h : Hub} (ha : h.screenActive = false) (ok : Bool) :
    (h.beginScreenSession ok).1 = h.startGeneration := by
  rw [beginScreenSession, ha]
  rfl

namespace ScreenControl

open Session (SessionInv SocketInv connectCommit_of_idle)

/-! ### The owner of the slot -/

/-- A control socket. -/
def State.Dialed (s : State) (c : SocketId) : Prop :=
  ∃ w, s.dialer c = some w

/-- The goroutine that the controller's record names. -/
def State.Owner (s : State) (k : ConnId) (w : WorkerId) : Prop :=
  s.reconnect w ≠ .idle ∧
    s.server.controlOwner = some (k, (s.server.worker w).gen, (s.server.worker w).hubGen)

/-- Who may act on the control slot. -/
structure Base (k : ConnId) (s : State) : Prop where
  /-- The session. -/
  session : SessionInv k s.session
  /-- The other slots hold no control sockets. -/
  clean : Server.Clean k s.Dialed s.server
  /-- The calls hold no control sockets. -/
  call : ∀ c i, (s.session.call c).socket = some i → ¬s.Dialed i ∧ i < s.server.nextSocket
  /-- A goroutine comes with a screen worker. -/
  launched : ∀ w, s.reconnect w ≠ .idle → w < s.server.nextWorker ∧
    (s.server.worker w).stream = .screen ∧ (s.server.worker w).conn = k ∧
    0 < (s.server.worker w).hubGen ∧ (s.server.worker w).hubGen ≤ s.server.hub.screenGeneration
  /-- Each screen worker has a session of the hub of its own. -/
  order : ∀ v w, v < w → s.reconnect v ≠ .idle → s.reconnect w ≠ .idle →
    (s.server.worker v).hubGen < (s.server.worker w).hubGen
  /-- The record names a worker that has still to close the control socket. -/
  owner : s.server.controlOwner.isSome → s.server.conn = some k ∧
    ∃ w, s.Owner k w ∧ (s.server.worker w).phase.beforeClose = true
  /-- The hub's session is the owner's. -/
  active : s.server.hub.screenActive = true →
    (s.server.stream .screen).hubGen = s.server.hub.screenGeneration ∧
    ∃ w, s.Owner k w ∧ (s.server.worker w).hubGen = s.server.hub.screenGeneration ∧
      (s.server.worker w).phase.beforeEnd = true

variable {k : ConnId} {s t : State} {u : Session.State} {v w : WorkerId}

theorem Base.hubGen_inj (h : Base k s) (hv : s.reconnect v ≠ .idle) (hw : s.reconnect w ≠ .idle)
    (heq : (s.server.worker v).hubGen = (s.server.worker w).hubGen) : v = w := by
  obtain hlt | rfl | hlt := Nat.lt_trichotomy v w
  · exact absurd heq (Nat.ne_of_lt (h.order v w hlt hv hw))
  · rfl
  · exact absurd heq.symm (Nat.ne_of_lt (h.order w v hlt hw hv))

theorem Base.owner_unique (h : Base k s) (hv : s.Owner k v) (hw : s.Owner k w) : v = w := by
  refine h.hubGen_inj hv.1 hw.1 ?_
  have heq := Option.some.inj (hv.2.symm.trans hw.2)
  exact congrArg (fun o ↦ o.2.2) heq

theorem Base.conn_of_owner (h : Base k s) (hw : s.Owner k w) : s.server.conn = some k :=
  (h.owner (by rw [hw.2]; rfl)).1

/-- The worker that the record names has still to close the control socket. -/
theorem Base.beforeClose_of_owner (h : Base k s) (hw : s.Owner k w) :
    (s.server.worker w).phase.beforeClose = true := by
  obtain ⟨-, v, hv, hp⟩ := h.owner (by rw [hw.2]; rfl)
  rwa [h.owner_unique hv hw] at hp

theorem live_of_beforeClose (hw : w < s.server.nextWorker)
    (hp : (s.server.worker w).phase.beforeClose = true) : s.server.Live w := by
  refine ⟨hw, fun h ↦ ?_⟩
  rw [h] at hp
  cases hp

theorem WorkerPhase.beforeClose_of_beforeEnd {p : WorkerPhase} (h : p.beforeEnd = true) :
    p.beforeClose = true := by
  cases p <;> first | rfl | cases h

/-- What the controller knows of a session of the hub. -/
theorem Base.hubOwned (h : Base k s) : s.server.HubOwned where
  hubGen ha := by
    obtain ⟨heq, w, hw, hgen, -⟩ := h.active ha
    exact ⟨heq, by rw [← hgen]; exact Nat.ne_of_gt (h.launched w hw.1).2.2.2.1⟩
  worker ha v hv hx := by
    obtain ⟨-, w, hw, hgen, hp⟩ := h.active ha
    obtain ⟨hlt, hscreen, -⟩ := h.launched w hw.1
    have hl := live_of_beforeClose hlt (WorkerPhase.beforeClose_of_beforeEnd hp)
    obtain rfl : v = w := (h.session.lane .screen (by rintro ⟨⟩)).unique v w _ _
      (Server.liveOn_eq_some_iff.2 ⟨hv, rfl, hx⟩) (Server.liveOn_eq_some_iff.2 ⟨hl, rfl, hscreen⟩)
    exact ⟨hp, hgen⟩

/-- After a `Disconnect` the record names nobody. -/
theorem Base.owner_of_leaving (h : Base k s) (hl : Leaving s.session) :
    s.server.controlOwner = none := by
  obtain ⟨c, conn, dones, hc⟩ := hl
  by_contra ho
  have hconn := (h.owner (Option.isSome_iff_ne_none.2 ho)).1
  cases hconn.symm.trans (h.session.closing c conn dones hc)

/-! ### Steps keep the owner -/

/-- The goroutines are kept by a step that launches no screen worker. -/
theorem follow_reconnect (h : ∀ w, s.server.nextWorker ≤ w → w < u.server.nextWorker →
    (u.server.worker w).stream ≠ .screen) : (s.follow u).reconnect = s.reconnect :=
  if_neg fun hw ↦ h _ (Nat.le_refl _) hw.1 hw.2

theorem follow_reconnect_of_launches (h : s.server.Launches k s.Dialed u.server) :
    (s.follow u).reconnect = Function.update s.reconnect s.server.nextWorker .entering :=
  if_pos ⟨by rw [h.new.1]; exact Nat.lt_succ_self _, h.new.2.1⟩

/-- What a step has to keep of the workers. -/
structure Kept (s t : State) : Prop where
  /-- No goroutine starts. -/
  reconnect : ∀ w, t.reconnect w ≠ .idle ↔ s.reconnect w ≠ .idle
  /-- Workers may be allocated. -/
  nextWorker : s.server.nextWorker ≤ t.server.nextWorker
  /-- A worker keeps its arguments. -/
  worker : ∀ w < s.server.nextWorker, ∃ phase,
    t.server.worker w = { s.server.worker w with phase }
  /-- No session of the hub begins. -/
  screenGeneration : t.server.hub.screenGeneration = s.server.hub.screenGeneration

theorem Base.gen_eq (h : Base k s) (hk : Kept s t) (hw : s.reconnect w ≠ .idle) :
    (t.server.worker w).gen = (s.server.worker w).gen ∧
      (t.server.worker w).hubGen = (s.server.worker w).hubGen := by
  obtain ⟨phase, heq⟩ := hk.worker w (h.launched w hw).1
  rw [heq]
  exact ⟨rfl, rfl⟩

theorem Base.owner_iff (h : Base k s) (hk : Kept s t)
    (ho : t.server.controlOwner = s.server.controlOwner) : t.Owner k w ↔ s.Owner k w := by
  refine (and_congr_left' (hk.reconnect w)).trans (and_congr_right fun hw ↦ ?_)
  obtain ⟨hgen, hhub⟩ := h.gen_eq hk hw
  rw [ho, hgen, hhub]

/-- A step that launches no screen worker. -/
theorem Base.of_kept (h : Base k s) (hk : Kept s t) (hsession : SessionInv k t.session)
    (hclean : Server.Clean k t.Dialed t.server)
    (hcall : ∀ c i, (t.session.call c).socket = some i → ¬t.Dialed i ∧ i < t.server.nextSocket)
    (howner : t.server.controlOwner.isSome → t.server.conn = some k ∧
      ∃ w, t.Owner k w ∧ (t.server.worker w).phase.beforeClose = true)
    (hactive : t.server.hub.screenActive = true →
      (t.server.stream .screen).hubGen = t.server.hub.screenGeneration ∧
      ∃ w, t.Owner k w ∧ (t.server.worker w).hubGen = t.server.hub.screenGeneration ∧
        (t.server.worker w).phase.beforeEnd = true) : Base k t where
  session := hsession
  clean := hclean
  call := hcall
  launched w hw := by
    obtain ⟨hlt, hx, hconn, hpos, hle⟩ := h.launched w ((hk.reconnect w).1 hw)
    obtain ⟨phase, heq⟩ := hk.worker w hlt
    rw [heq, hk.screenGeneration]
    exact ⟨Nat.lt_of_lt_of_le hlt hk.nextWorker, hx, hconn, hpos, hle⟩
  order v w hvw hv hw := by
    have hv := (hk.reconnect v).1 hv
    have hw := (hk.reconnect w).1 hw
    rw [(h.gen_eq hk hv).2, (h.gen_eq hk hw).2]
    exact h.order v w hvw hv hw
  owner := howner
  active := hactive

theorem closeConnection_keeps (s : Server) (k : ConnId) :
    (s.closeConnection k).worker = s.worker ∧ (s.closeConnection k).nextWorker = s.nextWorker ∧
      (s.closeConnection k).conn = s.conn ∧ (s.closeConnection k).hub = s.hub ∧
      (s.closeConnection k).controlOwner = s.controlOwner ∧
      (s.closeConnection k).nextSocket = s.nextSocket := by
  rw [Server.closeConnection]
  split <;> exact ⟨rfl, rfl, rfl, rfl, rfl, rfl⟩

theorem closeConnection_slot {s : Server} {x : StreamId} {c : SocketId}
    (h : ((s.closeConnection k).connection k).slot x = some c) :
    (s.connection k).slot x = some c := by
  rw [Server.closeConnection] at h
  split at h
  · exact h
  · simp only [Function.update_self] at h
    cases h

theorem closeControlConn_keeps (s : Server) (k : ConnId) (socket : Option SocketId) :
    (s.closeControlConn k socket).worker = s.worker ∧
      (s.closeControlConn k socket).nextWorker = s.nextWorker ∧
      (s.closeControlConn k socket).hub = s.hub ∧
      (s.closeControlConn k socket).controlOwner = s.controlOwner ∧
      (s.closeControlConn k socket).nextSocket = s.nextSocket ∧
      ∀ x, x ≠ .control →
        ((s.closeControlConn k socket).connection k).slot x = (s.connection k).slot x := by
  rcases socket with _ | c
  · exact ⟨rfl, rfl, rfl, rfl, rfl, fun _ _ ↦ rfl⟩
  · simp only [Server.closeControlConn]
    split
    · refine ⟨rfl, rfl, rfl, rfl, rfl, fun x hx ↦ ?_⟩
      rw [show ((s.setSlot k .control none).closeSocket (some c)).connection =
        (s.setSlot k .control none).connection from rfl, Server.setSlot_slot]
      exact if_neg fun h ↦ hx h.2
    · exact ⟨rfl, rfl, rfl, rfl, rfl, fun _ _ ↦ rfl⟩

/-- A session of the hub has a live screen worker. -/
theorem Base.inactive_of_idle (h : Base k s)
    (hidle : ∀ w, s.server.Live w → (s.server.worker w).stream ≠ .screen) :
    s.server.hub.screenActive = false := by
  by_contra ha
  obtain ⟨-, w, hw, -, hp⟩ := h.active (eq_true_of_ne_false ha)
  obtain ⟨hlt, hx, -⟩ := h.launched w hw.1
  exact hidle w (live_of_beforeClose hlt (WorkerPhase.beforeClose_of_beforeEnd hp)) hx

/-- **A screen worker is launched**: it is the new owner. -/
theorem Base.launches (h : Base k s) (hla : s.server.Launches k s.Dialed u.server)
    (hidle : ∀ w, s.server.Live w → (s.server.worker w).stream ≠ .screen)
    (hi : SessionInv k u)
    (hcall : ∀ c i, (u.call c).socket = some i → ¬s.Dialed i ∧ i < u.server.nextSocket) :
    Base k (s.follow u) := by
  have hrec := follow_reconnect_of_launches hla
  obtain ⟨ok, hhub⟩ := hla.hub
  rw [Hub.beginScreenSession_of_inactive (h.inactive_of_idle hidle)] at hhub
  have hgen : u.server.hub.screenGeneration = s.server.hub.screenGeneration + 1 := by
    rw [hhub]
    rfl
  obtain ⟨hnext, hscreen, hconn, hphase, hhubGen⟩ := hla.new
  -- a goroutine is the new one, or an old one with the worker it had
  have hold {w : WorkerId} (hw : (s.follow u).reconnect w ≠ .idle) :
      w = s.server.nextWorker ∨ (w ≠ s.server.nextWorker ∧ s.reconnect w ≠ .idle) := by
    rw [hrec] at hw
    obtain rfl | hne := eq_or_ne w s.server.nextWorker
    · exact .inl rfl
    · exact .inr ⟨hne, by rwa [Function.update_of_ne hne] at hw⟩
  have hargs {w : WorkerId} (hw : s.reconnect w ≠ .idle) :
      ∃ phase, u.server.worker w = { s.server.worker w with phase } :=
    hla.worker w (h.launched w hw).1
  have hnew : (s.follow u).Owner k s.server.nextWorker := by
    refine ⟨by rw [hrec, Function.update_self]; rintro ⟨⟩, ?_⟩
    rw [show (s.follow u).server = u.server from rfl, hla.owner, hhubGen]
  refine ⟨hi, hla.clean h.clean, hcall, fun w hw ↦ ?_, fun v w hvw hv hw ↦ ?_, fun _ ↦ ?_,
    fun _ ↦ ?_⟩
  · rw [show (s.follow u).server = u.server from rfl, hgen]
    obtain rfl | ⟨-, hw⟩ := hold hw
    · rw [hhubGen, hgen, hnext]
      exact ⟨Nat.lt_succ_self _, hscreen, hconn, Nat.succ_pos _, Nat.le_refl _⟩
    · obtain ⟨hlt, hx, hc, hpos, hle⟩ := h.launched w hw
      obtain ⟨phase, heq⟩ := hargs hw
      rw [heq, hnext]
      exact ⟨Nat.lt_succ_of_lt hlt, hx, hc, hpos, Nat.le_succ_of_le hle⟩
  · rw [show (s.follow u).server = u.server from rfl]
    obtain rfl | ⟨-, hv⟩ := hold hv
    · obtain rfl | ⟨-, hw⟩ := hold hw
      · exact absurd hvw (Nat.lt_irrefl _)
      · exact absurd hvw (Nat.not_lt.2 (Nat.le_of_lt (h.launched w hw).1))
    · obtain ⟨phase, heq⟩ := hargs hv
      obtain rfl | ⟨-, hw⟩ := hold hw
      · rw [heq, hhubGen, hgen]
        exact Nat.lt_succ_of_le (h.launched v hv).2.2.2.2
      · obtain ⟨phase', heq'⟩ := hargs hw
        rw [heq, heq']
        exact h.order v w hvw hv hw
  · refine ⟨hla.conn, s.server.nextWorker, hnew, ?_⟩
    rw [show (s.follow u).server = u.server from rfl, hphase]
    rfl
  · refine ⟨hla.hubGen, s.server.nextWorker, hnew, hhubGen, ?_⟩
    rw [show (s.follow u).server = u.server from rfl, hphase]
    rfl

/-- The sockets of the calls are no control sockets. -/
theorem call_step (h : Base k s) {e : Session.Event} (hs : Session.step s.session e = some u) :
    ∀ c i, (u.call c).socket = some i → ¬s.Dialed i ∧ i < u.server.nextSocket := by
  intro c i hc
  obtain hold | ⟨rfl, hnext⟩ := Session.socket_step hs hc
  · obtain ⟨hd, hlt⟩ := h.call c i hold
    exact ⟨hd, Nat.lt_of_lt_of_le hlt (h.session.step_mono hs).1⟩
  · refine ⟨fun hd ↦ Nat.lt_irrefl _ (h.clean.1 _ hd), ?_⟩
    rw [hnext]
    exact Nat.lt_succ_self _

/-- **Every step of the session keeps the owner.** -/
theorem Base.session_step (h : Base k s) {e : Session.Event}
    (hs : Session.step s.session e = some u) : Base k (s.follow u) := by
  have hi := h.session.step hs
  have hcall := call_step h hs
  have keep (hnext : s.server.nextWorker ≤ u.server.nextWorker)
      (hworker : ∀ w < s.server.nextWorker, ∃ phase,
        u.server.worker w = { s.server.worker w with phase })
      (hlaunch : ∀ w, s.server.nextWorker ≤ w → w < u.server.nextWorker →
        (u.server.worker w).stream ≠ .screen)
      (hgen : u.server.hub.screenGeneration = s.server.hub.screenGeneration) :
      Kept s (s.follow u) :=
    ⟨fun w ↦ by rw [follow_reconnect hlaunch], hnext, hworker, hgen⟩
  rcases controlStep (D := s.Dialed) h.session h.hubOwned h.call hs with
    ⟨ha, -⟩ | ⟨hc, hub, -⟩ | ⟨ha, hub, hconn, howner, hnext, -⟩ | ⟨hl, heq⟩ | ⟨hla, -, hidle⟩ |
    ⟨w, hcl, -⟩
  · -- aside
    have hk := keep ha.nextWorker ha.worker ha.launch (by rw [ha.hub])
    refine h.of_kept hk hi (ha.clean h.clean) hcall (fun ho ↦ ?_) fun hact ↦ ?_
    · rw [show (s.follow u).server = u.server from rfl, ha.owner] at ho
      obtain ⟨hconn, w, hw, hp⟩ := h.owner ho
      obtain ⟨hlt, hx, -⟩ := h.launched w hw.1
      exact ⟨ha.conn.trans hconn, w, (h.owner_iff hk ha.owner).2 hw, ha.close w hlt hx hw.2 hp⟩
    · rw [show (s.follow u).server = u.server from rfl, ha.hub] at hact ⊢
      obtain ⟨hgen, w, hw, heq, hp⟩ := h.active hact
      obtain ⟨hlt, hx, -⟩ := h.launched w hw.1
      exact ⟨(ha.hubGen hact).trans hgen, w, (h.owner_iff hk ha.owner).2 hw,
        (h.gen_eq hk hw.1).2.trans heq, ha.ending w hlt hx hp⟩
  · -- the session of the hub is ended
    obtain ⟨hinactive, hgen, -⟩ := hub.spec
    have hk := keep hc.nextWorker hc.worker hc.launch hgen
    refine h.of_kept hk hi (hc.clean h.clean) hcall (fun ho ↦ ?_) fun hact ↦ ?_
    · rw [show (s.follow u).server = u.server from rfl, hc.owner] at ho
      obtain ⟨hconn, w, hw, hp⟩ := h.owner ho
      obtain ⟨hlt, hx, -⟩ := h.launched w hw.1
      exact ⟨hc.conn.trans hconn, w, (h.owner_iff hk hc.owner).2 hw, hc.close w hlt hx hw.2 hp⟩
    · cases hinactive.symm.trans hact
  · -- `Disconnect`
    obtain ⟨hinactive, hgen, -⟩ := hub.spec
    have hk := keep ha.nextWorker ha.worker
      (fun w hw hlt ↦ absurd hlt (by rw [hnext]; exact Nat.not_lt.2 hw)) hgen
    refine h.of_kept hk hi (ha.clean h.clean) hcall (fun ho ↦ ?_) fun hact ↦ ?_
    · rw [show (s.follow u).server = u.server from rfl, howner] at ho
      cases ho
    · cases hinactive.symm.trans hact
  · -- the close of the connection
    obtain ⟨hworker, hnext, hconn, hhub, howner, hsocket⟩ := closeConnection_keeps s.server k
    rw [← heq] at hworker hnext hconn hhub howner hsocket
    have hk := keep (Nat.le_of_eq hnext.symm) (fun w _ ↦ ⟨_, congrFun hworker w⟩)
      (fun w hw hlt ↦ absurd hlt (by rw [hnext]; exact Nat.not_lt.2 hw)) (by rw [hhub])
    have hnone := h.owner_of_leaving hl
    refine h.of_kept hk hi ⟨fun c hc ↦ ?_, fun x hx c hc ↦ ?_⟩ hcall (fun ho ↦ ?_) fun hact ↦ ?_
    · exact Nat.lt_of_lt_of_le (h.clean.1 c hc) (Nat.le_of_eq hsocket.symm)
    · rw [show (s.follow u).server = u.server from rfl, hsocket]
      rw [show (s.follow u).server = u.server from rfl, heq] at hc
      exact h.clean.2 x hx c (closeConnection_slot hc)
    · rw [show (s.follow u).server = u.server from rfl, howner, hnone] at ho
      cases ho
    · rw [show (s.follow u).server = u.server from rfl, hhub] at hact
      obtain ⟨-, w, hw, -⟩ := h.active hact
      cases hnone.symm.trans hw.2
  · exact h.launches hla hidle hi hcall
  · -- the owner closes the control socket
    have hcl' := hcl.step
    generalize hv : s.server.clearControl.closeControlConn k
      ((s.server.connection k).slot .control) = v at hcl'
    obtain ⟨hworker, hnext, hhub, howner, hsocket, hslot⟩ := closeControlConn_keeps
      s.server.clearControl k ((s.server.connection k).slot .control)
    rw [hv] at hworker hnext hhub howner hsocket hslot
    have hk := keep (by rw [hcl']; exact Nat.le_of_eq hnext.symm)
      (fun x _ ↦ by
        rw [hcl', Server.setPhase_worker, hworker]
        split
        · rename_i hx
          exact ⟨_, by rw [hx]; rfl⟩
        · exact ⟨_, rfl⟩)
      (fun x hx hlt ↦ absurd hlt (by
        rw [hcl', show (v.setPhase w .closingStream).nextWorker = v.nextWorker from rfl, hnext]
        exact Nat.not_lt.2 hx))
      (by rw [hcl']; exact congrArg Hub.screenGeneration hhub)
    refine h.of_kept hk hi ⟨fun c hc ↦ ?_, fun x hx c hc ↦ ?_⟩ hcall (fun ho ↦ ?_) fun hact ↦ ?_
    · rw [show (s.follow u).server = u.server from rfl, hcl']
      exact Nat.lt_of_lt_of_le (h.clean.1 c hc) (Nat.le_of_eq hsocket.symm)
    · rw [show (s.follow u).server = u.server from rfl, hcl'] at hc ⊢
      rw [show (v.setPhase w .closingStream).nextSocket = v.nextSocket from rfl, hsocket]
      exact h.clean.2 x hx c ((hslot x hx).symm.trans hc)
    · rw [show (s.follow u).server = u.server from rfl, hcl',
        show (v.setPhase w .closingStream).controlOwner = v.controlOwner from rfl, howner] at ho
      cases ho
    · -- the owner has ended the session of the hub before
      rw [show (s.follow u).server = u.server from rfl, hcl',
        show (v.setPhase w .closingStream).hub = v.hub from rfl, hhub] at hact
      obtain ⟨hl, hx, hp⟩ := hcl.worker
      have hb := (h.hubOwned.worker hact w hl hx).1
      rw [hp] at hb
      cases hb

end ScreenControl

end AllRelay
