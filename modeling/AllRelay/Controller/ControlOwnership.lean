import AllRelay.Controller.ControlSocket

/-!
# Control socket ownership

What the invariants of `ControlOwner` and `ControlSocket` say about any run: no control socket is
lost, a superseded goroutine does not touch what belongs to a newer screen session, and the socket
of a registered route outlives the display-ON attempt of its session.
-/

open LabelledSystem

namespace AllRelay

/-- The writes of `EndScreenSession` with an open route: it pays a debt, if there is one. -/
theorem Hub.endScreenSession_writes {h : Hub} {gen : ℕ} {r : RouteId} (ha : h.accepts gen = true)
    (hr : h.controlRoute = some r) (hopen : (h.route r).closed = false) (ok : Bool) :
    (h.endScreenSession gen ok).1.writes =
      h.writes ++ if h.displayPowerOff then [(r, .display true, ok)] else [] := by
  rw [endScreenSession, ha]
  simp only [if_true]
  rw [close_eq]
  generalize hu : h.endScreenSessionLocked.1.clearReplay = u
  have hwrites : u.writes = h.writes := by
    rw [← hu]
    rfl
  have hdebt : u.displayPowerOff = h.displayPowerOff := by
    rw [← hu]
    rfl
  have hroute : (u.route r).closed = false := by
    rw [← hu]
    exact hopen
  rw [show h.endScreenSessionLocked.2 = some r from hr, restoreDisplay, hdebt]
  cases hoff : h.displayPowerOff with
  | false => exact hwrites.trans (List.append_nil _).symm
  | true =>
    rw [sendDisplayOn]
    simp only [hroute]
    rw [← hwrites]
    cases ok <;> rfl

namespace ScreenControl

/-! ### What ownership is -/

/-- The control slot of the connection that a goroutine was launched for. -/
def State.slotOf (s : State) (w : WorkerId) : Option SocketId :=
  (s.server.connection (s.server.worker w).conn).slot .control

/-- Nothing runs but the captures. -/
structure Settled (s : State) : Prop where
  /-- The calls have returned. -/
  call : ∀ c, s.session.call c = .idle ∨ ∃ outcome, s.session.call c = .returned outcome
  /-- The goroutines have returned. -/
  reconnect : ∀ w, s.reconnect w = .idle ∨ s.reconnect w = .done
  /-- A worker that has not exited is in its capture. -/
  worker : ∀ w, s.server.Live w → (s.server.worker w).phase = .running

/-- The worker `w` is the one of the current screen generation. -/
structure Current (s : State) (w : WorkerId) : Prop where
  /-- It runs on the current connection. -/
  conn : s.server.Live w ∧ s.server.conn = some (s.server.worker w).conn
  /-- The screen is on, and `w` has its generations. -/
  stream : (s.server.stream .screen).active = true ∧
    (s.server.stream .screen).gen = (s.server.worker w).gen ∧
    (s.server.stream .screen).hubGen = (s.server.worker w).hubGen

/-- Every control socket that was dialed is closed, in the slot, or in the hands of its goroutine,
whose next section closes or installs it; and in a settled state the one in the slot is the current
one. -/
structure SocketsOwned (s : State) : Prop where
  /-- The places of a socket. -/
  place : ∀ c w, s.dialer c = some w → s.server.socketClosed c = true ∨ s.slotOf w = some c ∨
    (s.reconnect w = .dialed c ∧ ∀ ok t, step s (.reconnect w ok) = some t →
      t.server.socketClosed c = true ∨ t.slotOf w = some c)
  /-- The end of a socket. -/
  settled : Settled s → ∀ c w, s.dialer c = some w →
    s.server.socketClosed c = true ∨ (s.slotOf w = some c ∧ Current s w)

/-- A section of a goroutine leaves the sockets and the routes of a newer screen session alone. -/
def SupersededHarmless (s : State) : Prop :=
  ∀ v w ok t, s.reconnect v ≠ .idle → (s.server.worker w).hubGen < (s.server.worker v).hubGen →
    step s (.reconnect w ok) = some t →
      (∀ c, s.dialer c = some v → t.server.socketClosed c = s.server.socketClosed c ∧
        (t.slotOf v = some c ↔ s.slotOf v = some c)) ∧
      t.server.hub.controlRoute = s.server.hub.controlRoute ∧ t.routeSocket = s.routeSocket

/-- The step is the `EndScreenSession` of the route's session, with its display-ON attempt if the
display is owed one. -/
def EndsRoute (s t : State) (r : RouteId) : Prop :=
  ∃ ok, t.server.hub = (s.server.hub.endScreenSession (s.server.hub.route r).generation ok).1 ∧
    t.server.hub.writes = s.server.hub.writes ++
      if s.server.hub.displayPowerOff then [(r, .display true, ok)] else []

/-- The socket of the registered route stays open and in the slot in every run in which the session
of the route does not end. -/
def RouteOutlived (s : State) : Prop :=
  ∀ r, s.server.hub.controlRoute = some r → ∃ c w, s.routeSocket r = some c ∧ s.dialer c = some w ∧
    ∀ es u, exec step s es = some u →
      Along step (fun s e ↦ ∀ t, step s e = some t → ¬EndsRoute s t r) s es →
        u.server.socketClosed c = false ∧ u.slotOf w = some c ∧ u.server.hub.controlRoute = some r

variable {k : ConnId} {s t : State} {v w : WorkerId}

/-! ### Settled states -/

theorem Base.slotOf (h : Base k s) (hw : s.reconnect w ≠ .idle) : s.slotOf w = s.slot k := by
  rw [State.slotOf, (h.launched w hw).2.2.1]

theorem Sockets.slotOf (h : Sockets k s) (hb : Base k s) {c : SocketId} (hd : s.dialer c = some w) :
    s.slotOf w = s.slot k :=
  hb.slotOf (ne_idle_of_afterDial (h.dialer c w hd))

/-- In a settled state the owner is the current screen worker. -/
theorem Base.current (h : Base k s) (hset : Settled s) (ho : s.Owner k w) : Current s w := by
  obtain ⟨hlt, hx, hk, -⟩ := h.launched w ho.1
  have hl := live_of_beforeClose hlt (h.beforeClose_of_owner ho)
  have hconn := h.conn_of_owner ho
  have hlane := h.session.lane .screen (by rintro ⟨⟩)
  have hlive := Server.liveOn_eq_some_iff.2 ⟨hl, rfl, hx⟩
  have hsome : (s.session.lane k .screen).conn.isSome := by
    rw [show (s.session.lane k .screen).conn = s.server.conn from rfl, hconn]
    rfl
  have hrun := hlane.alive hsome w _ hlive (by rw [hset.worker w hl]; rfl)
  have hactive : (s.server.stream .screen).active = true := by
    obtain ha | ⟨c, q, hq, -⟩ := hlane.running hrun
    · exact ha
    · -- a call that has returned claims nothing
      have hq' : (s.session.call c).claim .screen = some q := hq
      obtain hc | ⟨outcome, hc⟩ := hset.call c <;> rw [hc] at hq' <;> cases hq'
  obtain ⟨-, v, a, hv, -, hgen, hhub, -⟩ := hlane.active hactive
  obtain rfl := hlane.unique v w _ _ hv hlive
  obtain ⟨-, rfl, -⟩ := Server.liveOn_eq_some_iff.1 hv
  exact ⟨⟨hl, by rw [hconn, hk]⟩, hactive, hgen.symm, (hhub hx).symm⟩

/-- The section after the dial gets rid of the socket in hand. -/
theorem advance_of_dialed {c : SocketId} {ok : Bool} (hp : s.reconnect w = .dialed c)
    (hs : s.advance w ok = some t) (d : SocketId) : t.reconnect w ≠ .dialed d := by
  rw [State.advance, hp] at hs
  cases hs
  rw [show (s.put w _).reconnect w = _ from Function.update_self .., Server.reconnectInstall]
  split
  · rintro ⟨⟩
  · split <;> rintro ⟨⟩

theorem Sockets.owned (h : Sockets k s) (hb : Base k s) : SocketsOwned s where
  place c w hd := by
    obtain hclosed | hin | hp := h.ledger c w hd
    · exact .inl hclosed
    · exact .inr (.inl ((h.slotOf hb hd).trans hin))
    · refine .inr (.inr ⟨hp, fun ok t hs ↦ ?_⟩)
      obtain ⟨hbt, ht⟩ := step_inv h hb hs
      have hdt : t.dialer c = some w := by
        rw [step, State.advance, hp] at hs
        cases hs
        exact hd
      rw [ht.slotOf hbt hdt]
      exact (ht.ledger c w hdt).imp_right (Or.resolve_right · (advance_of_dialed hp hs c))
  settled hset c w hd := by
    obtain hclosed | hin | hp := h.ledger c w hd
    · exact .inl hclosed
    · refine .inr ⟨(h.slotOf hb hd).trans hin, ?_⟩
      obtain ⟨-, v, hv, ho | ⟨x, -, -, hp⟩ | ⟨d, conn, dones, hc⟩⟩ := h.slot c hin
      · obtain rfl := Option.some.inj (hd.symm.trans hv)
        exact hb.current hset ho
      · obtain hi | hi := hset.reconnect x <;> cases hi.symm.trans hp
      · obtain hi | ⟨outcome, hi⟩ := hset.call d <;> cases hi.symm.trans hc
    · obtain hi | hi := hset.reconnect w <;> cases hi.symm.trans hp

/-! ### A superseded goroutine -/

theorem reconnectEnter_keeps (s : Server) (a : Worker) :
    (s.reconnectEnter a).1.hub = s.hub ∧ (s.reconnectEnter a).1.worker = s.worker := by
  rw [Server.reconnectEnter]
  split <;> exact ⟨rfl, rfl⟩

theorem reconnectInstall_keeps (s : Server) (a : Worker) (c : SocketId) :
    (s.reconnectInstall a c).1.hub = s.hub ∧ (s.reconnectInstall a c).1.worker = s.worker := by
  have hinstall : (s.installStream a.conn .control c).1.hub = s.hub ∧
      (s.installStream a.conn .control c).1.worker = s.worker := by
    rw [Server.installStream]
    split
    · exact ⟨rfl, rfl⟩
    · simp only
      split <;> exact ⟨rfl, rfl⟩
  rw [Server.reconnectInstall]
  split
  · exact ⟨rfl, rfl⟩
  · split <;> rename_i heq <;> rw [heq] at hinstall <;> exact hinstall

/-- What a section of the goroutine `w` does to the workers and the hub. -/
theorem advance_keeps {ok : Bool} (hs : s.advance w ok = some t) :
    t.server.worker = s.server.worker ∧
      ((t.server.hub = s.server.hub ∧ t.routeSocket = s.routeSocket) ∨
        ((∃ cc, s.reconnect w = .registering cc) ∧
          s.server.hub.accepts (s.server.worker w).hubGen = true)) := by
  rw [State.advance] at hs
  rcases hp : s.reconnect w with _ | _ | _ | c | cc | cc | cc | _ <;> simp only [hp] at hs
  case idle | done => cases hs
  case entering =>
    cases hs
    have hkeeps := reconnectEnter_keeps s.server (s.server.worker w)
    exact ⟨hkeeps.2, .inl ⟨hkeeps.1, rfl⟩⟩
  case dialing =>
    split at hs <;> cases hs <;> exact ⟨rfl, .inl ⟨rfl, rfl⟩⟩
  case dialed =>
    cases hs
    have hkeeps := reconnectInstall_keeps s.server (s.server.worker w) c
    exact ⟨hkeeps.2, .inl ⟨hkeeps.1, rfl⟩⟩
  case checking =>
    split at hs <;> cases hs <;> exact ⟨rfl, .inl ⟨rfl, rfl⟩⟩
  case registering =>
    cases hs
    rw [State.register]
    by_cases ha : s.server.hub.accepts (s.server.worker w).hubGen = true
    · refine ⟨?_, .inr ⟨⟨cc, rfl⟩, ha⟩⟩
      split <;> rfl
    · rw [Hub.registerControlRoute_of_not_accepts (eq_false_of_ne_true ha)]
      exact ⟨rfl, .inl ⟨rfl, rfl⟩⟩
  case closing =>
    cases hs
    have hkeeps := closeControlConn_keeps s.server (s.server.worker w).conn cc
    exact ⟨hkeeps.1, .inl ⟨hkeeps.2.2.1, rfl⟩⟩

/-- A section of the goroutine `w` leaves the sockets of a newer one where they are. -/
theorem Sockets.advance_newer (h : Sockets k s) (hb : Base k s) (hv : s.reconnect v ≠ .idle)
    (hlt : (s.server.worker w).hubGen < (s.server.worker v).hubGen) {ok : Bool}
    (hs : s.advance w ok = some t) {c : SocketId} (hd : s.dialer c = some v) :
    t.server.socketClosed c = s.server.socketClosed c ∧
      (t.slot k = some c ↔ s.slot k = some c) := by
  have hother {d : SocketId} (hdw : s.dialer d = some w) : d ≠ c := by
    rintro rfl
    obtain rfl := Option.some.inj (hdw.symm.trans hd)
    exact Nat.lt_irrefl _ hlt
  have hkeep {d : SocketId} (hdw : s.dialer d = some w) :
      (s.server.socketClosed c || decide (some d = some c)) = s.server.socketClosed c := by
    rw [decide_eq_false fun heq ↦ hother hdw (Option.some.inj heq), Bool.or_false]
  rw [State.advance] at hs
  rcases hp : s.reconnect w with _ | _ | _ | d | cc | cc | cc | _ <;> simp only [hp] at hs
  case idle | done => cases hs
  case entering =>
    cases hs
    have hidle : s.reconnect w ≠ .idle := by rw [hp]; rintro ⟨⟩
    show (s.server.reconnectEnter _).1.socketClosed c = _ ∧
      (((s.server.reconnectEnter _).1.connection k).slot .control = some c ↔ _)
    rw [Server.reconnectEnter, (hb.launched w hidle).2.2.1]
    split
    · rename_i ho
      have howner : s.Owner k w := ⟨hidle, Server.ownsControl_iff.1 ho⟩
      -- a newer socket is not in the slot before its goroutine is the owner
      have hnot : s.slot k ≠ some c := by
        intro hin
        obtain ⟨-, v', hv', hmay⟩ := h.slot c hin
        obtain rfl := Option.some.inj (hd.symm.trans hv')
        obtain hov | ⟨x, hvx, hx, -⟩ | hl := hmay
        · obtain rfl := hb.owner_unique hov howner
          exact Nat.lt_irrefl _ hlt
        · obtain rfl := hb.owner_unique hx howner
          exact Nat.lt_asymm hlt (hb.order v x hvx hv hidle)
        · cases (hb.owner_of_leaving hl).symm.trans howner.2
      have hclosed : (s.server.closeStream k .control).socketClosed c =
          (s.server.socketClosed c || decide (s.slot k = some c)) := rfl
      rw [hclosed, decide_eq_false hnot, Bool.or_false, Server.closeStream_slot, if_pos ⟨rfl, rfl⟩]
      exact ⟨rfl, iff_of_false (by rintro ⟨⟩) hnot⟩
    · exact ⟨rfl, .rfl⟩
  case dialing =>
    split at hs <;> cases hs
    · refine ⟨Function.update_of_ne (Nat.ne_of_lt (hb.clean.1 c ⟨v, hd⟩)) .., .rfl⟩
    · exact ⟨rfl, .rfl⟩
  case dialed =>
    cases hs
    have hidle : s.reconnect w ≠ .idle := by rw [hp]; rintro ⟨⟩
    obtain ⟨hdw, -⟩ := h.dialed d w hp
    show (s.server.reconnectInstall _ d).1.socketClosed c = _ ∧
      (((s.server.reconnectInstall _ d).1.connection k).slot .control = some c ↔ _)
    rw [Server.reconnectInstall, (hb.launched w hidle).2.2.1]
    split
    · exact ⟨hkeep hdw, .rfl⟩
    · rename_i hown
      rw [not_or, Bool.not_eq_false] at hown
      have ho : s.Owner k w := ⟨hidle, Server.ownsControl_iff.1 hown.1⟩
      have hnone := h.empty_of_dialed hb hp ho
      simp only [installStream_of_empty d (hb.session.shared.opened (hb.conn_of_owner ho)) hnone]
      refine ⟨Bool.or_false _, iff_of_false (fun hin ↦ hother hdw ?_) ?_⟩
      · have hself := s.server.setSlot_slot k k .control .control (some d)
        rw [if_pos ⟨rfl, rfl⟩] at hself
        exact Option.some.inj (hself.symm.trans hin)
      · rw [hnone]
        rintro ⟨⟩
  case checking =>
    split at hs <;> cases hs <;> exact ⟨rfl, .rfl⟩
  case registering =>
    cases hs
    rw [State.register]
    split <;> exact ⟨rfl, .rfl⟩
  case closing =>
    cases hs
    have hidle : s.reconnect w ≠ .idle := by rw [hp]; rintro ⟨⟩
    obtain ⟨d, rfl, hdw⟩ := h.after w cc (by rw [hp]; rfl)
    show (s.server.closeControlConn _ (some d)).socketClosed c = _ ∧
      (((s.server.closeControlConn _ (some d)).connection k).slot .control = some c ↔ _)
    rw [(hb.launched w hidle).2.2.1, closeControlConn_socketClosed, closeControlConn_slot_iff]
    exact ⟨hkeep hdw, and_iff_left (hother hdw).symm⟩

theorem Sockets.supersededHarmless (h : Sockets k s) (hb : Base k s) : SupersededHarmless s := by
  intro v w ok t hv hlt hs
  obtain ⟨hworker, hkeeps⟩ := advance_keeps hs
  refine ⟨fun c hd ↦ ?_, ?_⟩
  · rw [State.slotOf, State.slotOf, hworker, (hb.launched v hv).2.2.1]
    exact h.advance_newer hb hv hlt hs hd
  · obtain ⟨hhub, hsock⟩ | ⟨-, ha⟩ := hkeeps
    · exact ⟨congrArg Hub.controlRoute hhub, hsock⟩
    · -- a newer screen session has taken the hub's generation
      have hle := (hb.launched v hv).2.2.2.2
      exact absurd (Hub.accepts_iff.1 ha).2 (Nat.ne_of_lt (Nat.lt_of_lt_of_le hlt hle))

/-! ### The socket of the registered route -/

/-- A step keeps the registered route, or ends its session. -/
theorem Sockets.route_step (h : Sockets k s) (hb : Base k s) {e : Event} (hs : step s e = some t)
    {r : RouteId} (hr : s.server.hub.controlRoute = some r) (hne : ¬EndsRoute s t r) :
    t.server.hub.controlRoute = some r ∧ t.routeSocket r = s.routeSocket r := by
  obtain ⟨ha, hg, hopen, c, v, -, hd, -, hdone, hgen⟩ := h.route r hr
  have ends (he : Server.EndsSession s.server.hub t.server.hub) : False := by
    obtain ⟨ok, hhub⟩ := he.of_active ha
    rw [← hg] at hhub
    refine hne ⟨ok, hhub, ?_⟩
    rw [hhub]
    exact Hub.endScreenSession_writes (Hub.accepts_iff.2 ⟨ha, hg⟩) hr hopen ok
  rcases e with e | ⟨w, ok⟩ | ⟨op, ok⟩ <;> rw [step] at hs
  · obtain ⟨u, hu, rfl⟩ := Option.map_eq_some_iff.1 hs
    have same (hhub : u.server.hub = s.server.hub) :
        (s.follow u).server.hub.controlRoute = some r ∧
          (s.follow u).routeSocket r = s.routeSocket r :=
      ⟨(congrArg Hub.controlRoute hhub).trans hr, rfl⟩
    rcases controlStep (D := s.Dialed) hb.session hb.hubOwned hb.call hu with
      ⟨ha, -⟩ | ⟨-, hub, -⟩ | ⟨-, hub, -⟩ | ⟨-, heq⟩ | ⟨-, -, hidle⟩ | ⟨w, hcl, -⟩
    · exact same ha.hub
    · exact absurd hub ends
    · exact absurd hub ends
    · rw [heq] at same
      exact same (closeConnection_keeps s.server k).2.2.2.1
    · cases ha.symm.trans (hb.inactive_of_idle hidle)
    · refine same ?_
      rw [hcl.step]
      exact (closeControlConn_keeps s.server.clearControl k _).2.2.1
  · obtain ⟨hhub, hsock⟩ | ⟨⟨cc, hp⟩, hacc⟩ := (advance_keeps hs).2
    · exact ⟨(congrArg Hub.controlRoute hhub).trans hr, congrFun hsock r⟩
    · -- the goroutine of the hub's session has registered this route before
      obtain rfl := hb.hubGen_inj (v := w) (w := v) (by rw [hp]; rintro ⟨⟩)
        (by rw [hdone]; rintro ⟨⟩) ((Hub.accepts_iff.1 hacc).2.trans hgen.symm)
      cases hp.symm.trans hdone
  · split at hs <;> cases hs
    rename_i hop
    exact ⟨(Hub.SameRoute.perform _ hop ok).controlRoute.trans hr, rfl⟩

/-- A socket has one dialer for ever. -/
theorem Base.dialer_step (hb : Base k s) {e : Event} (hs : step s e = some t) {c : SocketId}
    (hd : s.dialer c = some w) : t.dialer c = some w := by
  rcases e with e | ⟨v, ok⟩ | ⟨op, ok⟩ <;> rw [step] at hs
  · obtain ⟨u, -, rfl⟩ := Option.map_eq_some_iff.1 hs
    exact hd
  · rw [State.advance] at hs
    rcases hp : s.reconnect v with _ | _ | _ | d | cc | cc | cc | _ <;> simp only [hp] at hs
    case idle | done => cases hs
    case dialing =>
      split at hs <;> cases hs
      · have hne : c ≠ s.server.nextSocket := Nat.ne_of_lt (hb.clean.1 c ⟨w, hd⟩)
        exact (Function.update_of_ne hne ..).trans hd
      · exact hd
    case checking => split at hs <;> cases hs <;> exact hd
    case registering =>
      cases hs
      rw [State.register]
      split <;> exact hd
    all_goals
      cases hs
      exact hd
  · split at hs <;> cases hs
    exact hd

theorem Sockets.routeOutlived (h : Sockets k s) (hb : Base k s) : RouteOutlived s := by
  intro r hr
  obtain ⟨-, -, -, c, w, hsock, hd, -⟩ := h.route r hr
  refine ⟨c, w, hsock, hd, fun es u hu halong ↦ ?_⟩
  -- the run keeps the route, its socket and the dialer of the socket
  obtain ⟨hbu, hu, hru, hsocku, hdu⟩ := exec_invariant_along
    (P := fun u ↦ Base k u ∧ Sockets k u ∧ u.server.hub.controlRoute = some r ∧
      u.routeSocket r = some c ∧ u.dialer c = some w)
    (fun s e t hne hp hs ↦ by
      obtain ⟨hb, h, hr, hsock, hd⟩ := hp
      obtain ⟨hbt, ht⟩ := step_inv h hb hs
      obtain ⟨hrt, hst⟩ := h.route_step hb hs hr (hne t hs)
      exact ⟨hbt, ht, hrt, hst.trans hsock, hb.dialer_step hs hd⟩)
    halong ⟨hb, h, hr, hsock, hd⟩ hu
  obtain ⟨-, -, -, c', -, hsock', -, hin, -⟩ := hu.route r hru
  obtain rfl := Option.some.inj (hsocku.symm.trans hsock')
  exact ⟨(hu.slot c hin).1, (hu.slotOf hbu hdu).trans hin, hru⟩

/-! ### Every run -/

/-- The invariants of every reachable state. -/
theorem reachable_inv (h : Reachable Starts step s) : ∃ k, Base k s ∧ Sockets k s := by
  refine h.invariant (P := fun s ↦ ∃ k, Base k s ∧ Sockets k s) (fun s hs ↦ hs.inv) ?_
  rintro s e t ⟨k, hb, hi⟩ hs
  exact ⟨k, step_inv hi hb hs⟩

/-- **Control-socket ownership.** In every reachable state no control socket is lost, a section of a
superseded goroutine leaves what belongs to a newer screen session alone, and the socket of the
registered route outlives the end of its session. -/
theorem control_ownership (h : Reachable Starts step s) :
    SocketsOwned s ∧ SupersededHarmless s ∧ RouteOutlived s := by
  obtain ⟨k, hb, hi⟩ := reachable_inv h
  exact ⟨hi.owned hb, hi.supersededHarmless hb, hi.routeOutlived hb⟩

/-- The first session of a new controller, with nothing launched. -/
def firstScreen : State :=
  ⟨Session.firstSession, fun _ ↦ .idle, fun _ ↦ none, fun _ ↦ none⟩

/-- The screen is turned on, and its goroutine registers the control route. -/
def screenOn : List Event :=
  [.session (.start 0 .screen), .session (.advance 0 true), .session (.advance 0 true)] ++
    List.replicate 5 (.reconnect 1 true)

/-- The route of the first screen session writes to the third socket of the session. -/
theorem control_ownership_screenOn :
    ∃ s, exec step firstScreen screenOn = some s ∧ s.server.hub.controlRoute = some 0 ∧
      s.dialer 2 = some 1 ∧ SocketsOwned s ∧ SupersededHarmless s ∧ RouteOutlived s := by
  have hrun : (exec step firstScreen screenOn).map
      (fun s ↦ (s.server.hub.controlRoute, s.dialer 2)) =
      some (some 0, some 1) := by
    decide
  obtain ⟨s, hs, hrest⟩ := Option.map_eq_some_iff.1 hrun
  obtain ⟨hroute, hdialer⟩ := Prod.mk.inj hrest
  have hstarts : Starts firstScreen := by
    refine ⟨Session.firstSession_starts, ⟨rfl, rfl⟩, rfl, fun k x c hc ↦ ?_, fun _ ↦ rfl,
      fun _ ↦ rfl⟩
    obtain ⟨-, rfl⟩ : x = .speaker ∧ 0 = c := by
      have hc' : (if x = StreamId.speaker then some 0 else none) = some c := hc
      rw [Option.ite_none_right_eq_some] at hc'
      exact hc'.imp_right Option.some.inj
    exact Nat.zero_lt_one
  exact ⟨s, hs, hroute, hdialer, control_ownership ⟨_, _, hstarts, hs⟩⟩

end ScreenControl

end AllRelay
