import AllRelay.Controller.ControlOwner

/-!
# The places of the control sockets

Every control socket has one place: in the hands of the goroutine that dialed it, in the slot of the
connection, or closed. `Sockets` says what is in the slot, and that it stays there as long as a
control route is registered over it; every section of a goroutine keeps it so.
-/

open LabelledSystem

namespace AllRelay.ScreenControl

open Session (SessionInv SocketInv connectCommit_of_idle)

variable {k : ConnId} {s t : State} {u : Session.State} {v w : WorkerId}

/-! ### What is in the slot -/

/-- The control connection that a goroutine has read back after it installed its socket. -/
def Phase.controlConn : Phase → Option (Option SocketId)
  | .checking cc | .registering cc | .closing cc => some cc
  | _ => none

/-- The goroutine has still to hand its socket over to the hub. -/
def Phase.handing : Phase → Option SocketId
  | .checking cc | .registering cc => cc
  | _ => none

/-- A goroutine that has dialed. -/
def Phase.afterDial : Phase → Bool
  | .idle | .entering | .dialing => false
  | _ => true

/-- The control slot. -/
abbrev State.slot (s : State) (k : ConnId) : Option SocketId :=
  (s.server.connection k).slot .control

/-- The goroutine `w` may have its socket in the slot: it is the owner, or the owner or a
`Disconnect` has still to empty the slot. -/
def State.MayHold (s : State) (k : ConnId) (w : WorkerId) : Prop :=
  s.Owner k w ∨ (∃ v, w < v ∧ s.Owner k v ∧ s.reconnect v = .entering) ∨ Leaving s.session

/-- Where the control sockets are. -/
structure Sockets (k : ConnId) (s : State) : Prop where
  /-- The socket in the slot is open, and was dialed as a control socket. -/
  slot : ∀ c, s.slot k = some c → s.server.socketClosed c = false ∧
    ∃ w, s.dialer c = some w ∧ s.MayHold k w
  /-- A control socket is closed, in the slot or in the hands of its goroutine. -/
  ledger : ∀ c w, s.dialer c = some w →
    s.server.socketClosed c = true ∨ s.slot k = some c ∨ s.reconnect w = .dialed c
  /-- A socket in the hands of its goroutine is open and in no slot. -/
  dialed : ∀ c w, s.reconnect w = .dialed c →
    s.dialer c = some w ∧ s.server.socketClosed c = false ∧ s.slot k ≠ some c
  /-- A goroutine reads its own socket back. -/
  after : ∀ w cc, (s.reconnect w).controlConn = some cc → ∃ c, cc = some c ∧ s.dialer c = some w
  /-- The owner's socket stays in the slot until it is handed over. -/
  held : ∀ c w, (s.reconnect w).handing = some c → s.Owner k w → s.slot k = some c
  /-- A goroutine dials once. -/
  single : ∀ c d w, s.dialer c = some w → s.dialer d = some w → c = d
  /-- A goroutine that has a socket has dialed. -/
  dialer : ∀ c w, s.dialer c = some w → (s.reconnect w).afterDial = true
  /-- A registered route writes to the socket in the slot, which the goroutine of the hub's session
  dialed. -/
  route : ∀ r, s.server.hub.controlRoute = some r → s.server.hub.screenActive = true ∧
    (s.server.hub.route r).generation = s.server.hub.screenGeneration ∧
    (s.server.hub.route r).closed = false ∧
    ∃ c w, s.routeSocket r = some c ∧ s.dialer c = some w ∧ s.slot k = some c ∧
      s.reconnect w = .done ∧ (s.server.worker w).hubGen = s.server.hub.screenGeneration
  /-- A closed connection has no sockets. -/
  closed : (s.server.connection k).closed = true → s.slot k = none

theorem ne_idle_of_afterDial {p : Phase} (h : p.afterDial = true) : p ≠ .idle := by
  rintro rfl
  cases h

/-- A step of the session that leaves the control slot and the control sockets alone. -/
theorem Sockets.of_apart (h : Sockets k s) (ha : s.server.Apart k s.Dialed u.server)
    (hclean : Server.Clean k s.Dialed s.server)
    (hrec : ∀ w, (s.follow u).reconnect w = s.reconnect w ∨
      (s.reconnect w = .idle ∧ (s.follow u).reconnect w = .entering))
    (hhold : ∀ w, s.reconnect w ≠ .idle → s.MayHold k w → (s.follow u).MayHold k w)
    (hheld : ∀ w, s.reconnect w ≠ .idle → (s.follow u).Owner k w → s.Owner k w)
    (hroute : ∀ r, u.server.hub.controlRoute = some r → s.server.hub.controlRoute = some r ∧
      u.server.hub = s.server.hub ∧
      ∀ w, s.reconnect w ≠ .idle →
        (u.server.worker w).hubGen = (s.server.worker w).hubGen) :
    Sockets k (s.follow u) := by
  have hsame {w : WorkerId} (hw : s.reconnect w ≠ .idle) :
      (s.follow u).reconnect w = s.reconnect w :=
    (hrec w).resolve_right fun h ↦ hw h.1
  have hdialer {c : SocketId} {w : WorkerId} (hc : s.dialer c = some w) :
      s.reconnect w ≠ .idle :=
    ne_idle_of_afterDial (h.dialer c w hc)
  -- a goroutine that is past its entry was past it before
  have hpast {w : WorkerId} (hne : (s.follow u).reconnect w ≠ .entering)
      (hi : (s.follow u).reconnect w ≠ .idle) : (s.follow u).reconnect w = s.reconnect w :=
    (hrec w).resolve_right fun h ↦ hne h.2
  have hslot : (s.follow u).slot k = s.slot k := ha.slot
  have hclosed {c : SocketId} {w : WorkerId} (hc : s.dialer c = some w) :
      u.server.socketClosed c = s.server.socketClosed c :=
    ha.socketClosed hclean c ⟨w, hc⟩
  constructor
  case slot =>
    intro c hc
    obtain ⟨hopen, w, hw, hmay⟩ := h.slot c (hslot.symm.trans hc)
    exact ⟨(hclosed hw).trans hopen, w, hw, hhold w (hdialer hw) hmay⟩
  case ledger =>
    intro c w hc
    rw [hslot, hsame (hdialer hc)]
    exact (h.ledger c w hc).imp_left (hclosed hc).trans
  case dialed =>
    intro c w hc
    rw [hpast (by rw [hc]; rintro ⟨⟩) (by rw [hc]; rintro ⟨⟩)] at hc
    obtain ⟨hd, hopen, hne⟩ := h.dialed c w hc
    exact ⟨hd, (hclosed hd).trans hopen, by rwa [hslot]⟩
  case after =>
    intro w cc hc
    have hp := hpast (w := w) (fun he ↦ by rw [he] at hc; cases hc)
      (fun he ↦ by rw [he] at hc; cases hc)
    exact h.after w cc (hp ▸ hc)
  case held =>
    intro c w hc ho
    have hp := hpast (w := w) (fun he ↦ by rw [he] at hc; cases hc)
      (fun he ↦ by rw [he] at hc; cases hc)
    rw [hp] at hc
    rw [hslot]
    exact h.held c w hc (hheld w (fun he ↦ by rw [he] at hc; cases hc) ho)
  case single => exact h.single
  case dialer =>
    intro c w hc
    rw [hsame (hdialer hc)]
    exact h.dialer c w hc
  case route =>
    intro r hr
    obtain ⟨hr', hhub, hgen⟩ := hroute r hr
    obtain ⟨hactive, hg, hopen, c, w, hsock, hd, hin, hdone, hw⟩ := h.route r hr'
    rw [show (s.follow u).server = u.server from rfl, hhub, hslot]
    refine ⟨hactive, hg, hopen, c, w, hsock, hd, hin, ?_, ?_⟩
    · rw [hsame (hdialer hd), hdone]
    · rw [hgen w (hdialer hd), hw]
  case closed =>
    intro hc
    rw [hslot]
    exact h.closed (ha.closed.symm.trans hc)

/-- A step that empties the slot and closes the socket that was in it. -/
theorem Sockets.of_emptied (h : Sockets k s) (hdialer : t.dialer = s.dialer)
    (hslot : t.slot k = none)
    (hclosed : ∀ c, s.Dialed c → t.server.socketClosed c =
      (s.server.socketClosed c || decide (s.slot k = some c)))
    (hrec : ∀ w, t.reconnect w = s.reconnect w ∨
      (s.reconnect w = .entering ∧ t.reconnect w = .dialing))
    (hheld : ∀ w c, (s.reconnect w).handing = some c → ¬t.Owner k w)
    (hroute : t.server.hub.controlRoute = none) : Sockets k t := by
  have hsame {w : WorkerId} (hne : t.reconnect w ≠ .dialing) : t.reconnect w = s.reconnect w :=
    (hrec w).resolve_right fun h ↦ hne h.2
  have hafter {c : SocketId} {w : WorkerId} (hc : s.dialer c = some w) :
      t.reconnect w = s.reconnect w :=
    (hrec w).resolve_right fun he ↦ by
      have := h.dialer c w hc
      rw [he.1] at this
      cases this
  constructor
  case slot =>
    intro c hc
    cases hslot.symm.trans hc
  case ledger =>
    intro c w hc
    rw [hdialer] at hc
    rw [hclosed c ⟨w, hc⟩, hafter hc]
    obtain hcl | hin | hd := h.ledger c w hc
    · exact .inl (by rw [hcl]; rfl)
    · exact .inl (by rw [decide_eq_true hin, Bool.or_true])
    · exact .inr (.inr hd)
  case dialed =>
    intro c w hc
    rw [hsame (by rw [hc]; rintro ⟨⟩)] at hc
    obtain ⟨hd, hopen, hne⟩ := h.dialed c w hc
    refine ⟨by rw [hdialer, hd], ?_, by rw [hslot]; rintro ⟨⟩⟩
    rw [hclosed c ⟨w, hd⟩, hopen, decide_eq_false hne]
    rfl
  case after =>
    intro w cc hc
    rw [hsame (fun he ↦ by rw [he] at hc; cases hc)] at hc
    rw [hdialer]
    exact h.after w cc hc
  case held =>
    intro c w hc ho
    rw [hsame (fun he ↦ by rw [he] at hc; cases hc)] at hc
    exact absurd ho (hheld w c hc)
  case single =>
    intro c d w hc hd
    rw [hdialer] at hc hd
    exact h.single c d w hc hd
  case dialer =>
    intro c w hc
    rw [hdialer] at hc
    rw [hafter hc]
    exact h.dialer c w hc
  case route =>
    intro r hr
    cases hroute.symm.trans hr
  case closed => exact fun _ ↦ hslot

/-- The close of the connection closes the socket in the control slot and no other control
socket. -/
theorem closeConnection_control {s : Server} {c : SocketId}
    (hslot : ∀ x, x ≠ .control → (s.connection k).slot x ≠ some c)
    (hclosed : (s.connection k).closed = true → (s.connection k).slot .control = none) :
    (s.closeConnection k).socketClosed c =
      (s.socketClosed c || decide ((s.connection k).slot .control = some c)) := by
  rw [Server.closeConnection]
  split
  · rename_i hc
    rw [hclosed hc, decide_eq_false (by rintro ⟨⟩), Bool.or_false]
  · refine congrArg (s.socketClosed c || ·) (Bool.eq_iff_iff.2 ?_)
    rw [List.any_eq_true, decide_eq_true_eq]
    constructor
    · rintro ⟨x, -, hx⟩
      by_cases hxc : x = .control
      · exact hxc ▸ of_decide_eq_true hx
      · exact absurd (of_decide_eq_true hx) (hslot x hxc)
    · exact fun h ↦ ⟨.control, StreamId.mem_all _, decide_eq_true h⟩

theorem closeConnection_control_slot {s : Server}
    (hclosed : (s.connection k).closed = true → (s.connection k).slot .control = none) :
    ((s.closeConnection k).connection k).slot .control = none := by
  rw [Server.closeConnection]
  split
  · rename_i hc
    exact hclosed hc
  · simp only [Function.update_self]

/-- The close of the socket in the control slot. -/
theorem closeControlConn_slot (s : Server) (k : ConnId) :
    ((s.closeControlConn k ((s.connection k).slot .control)).connection k).slot .control = none ∧
      ∀ c, (s.closeControlConn k ((s.connection k).slot .control)).socketClosed c =
        (s.socketClosed c || decide ((s.connection k).slot .control = some c)) := by
  rcases hs : (s.connection k).slot .control with _ | d
  · exact ⟨hs, fun c ↦ by rw [decide_eq_false (by rintro ⟨⟩), Bool.or_false]; rfl⟩
  · rw [Server.closeControlConn, if_pos hs]
    exact ⟨(s.setSlot_slot k k .control .control none).trans (if_pos ⟨rfl, rfl⟩), fun c ↦ rfl⟩

/-- The slot loses the socket that is closed and no other. -/
theorem closeControlConn_slot_iff (s : Server) (k : ConnId) (c d : SocketId) :
    ((s.closeControlConn k (some c)).connection k).slot .control = some d ↔
      (s.connection k).slot .control = some d ∧ d ≠ c := by
  rw [Server.closeControlConn]
  split
  · rename_i hin
    rw [show ((s.setSlot k .control none).closeSocket (some c)).connection =
      (s.setSlot k .control none).connection from rfl, Server.setSlot_slot, if_pos ⟨rfl, rfl⟩]
    refine iff_of_false (by rintro ⟨⟩) fun hd ↦ hd.2 ?_
    exact Option.some.inj (hd.1.symm.trans hin)
  · rename_i hin
    refine ⟨fun h ↦ ⟨h, ?_⟩, And.left⟩
    rintro rfl
    exact hin h

theorem closeControlConn_socketClosed (s : Server) (k : ConnId) (c d : SocketId) :
    (s.closeControlConn k (some c)).socketClosed d =
      (s.socketClosed d || decide (some c = some d)) := by
  rw [Server.closeControlConn, Server.closeSocket_socketClosed]
  split <;> rfl

/-- **Every step of the session keeps the sockets in their places.** -/
theorem Sockets.session_step (h : Sockets k s) (hb : Base k s) {e : Session.Event}
    (hs : Session.step s.session e = some u) : Sockets k (s.follow u) := by
  have hb' := hb.session_step hs
  have noroute (hub : Server.EndsSession s.server.hub u.server.hub) :
      u.server.hub.controlRoute = none := by
    refine hub.spec.2.2 ?_
    rcases hr : s.server.hub.controlRoute with _ | r
    · exact .inr rfl
    · exact .inl (h.route r hr).1
  have kept (hc : s.server.Calm k s.Dialed u.server)
      (hgen : u.server.hub.screenGeneration = s.server.hub.screenGeneration) :
      Kept s (s.follow u) :=
    ⟨fun w ↦ by rw [follow_reconnect hc.launch], hc.nextWorker, hc.worker, hgen⟩
  -- the owner is kept, and so is who may be in the slot
  have calm (hc : s.server.Calm k s.Dialed u.server) (hl : Leaving s.session → Leaving u)
      (hgen : u.server.hub.screenGeneration = s.server.hub.screenGeneration)
      (hroute : ∀ r, u.server.hub.controlRoute = some r → s.server.hub.controlRoute = some r ∧
        u.server.hub = s.server.hub) : Sockets k (s.follow u) := by
    have hk := kept hc hgen
    have hrec := follow_reconnect hc.launch
    refine h.of_apart hc.toApart hb.clean (fun w ↦ .inl (by rw [hrec])) (fun w _ hmay ↦ ?_)
      (fun w _ ho ↦ (hb.owner_iff hk hc.owner).1 ho) fun r hr ↦ ?_
    · refine hmay.imp (hb.owner_iff hk hc.owner).2 (Or.imp ?_ hl)
      rintro ⟨v, hwv, hv, he⟩
      exact ⟨v, hwv, (hb.owner_iff hk hc.owner).2 hv, by rw [hrec, he]⟩
    · obtain ⟨hr, hhub⟩ := hroute r hr
      exact ⟨hr, hhub, fun w hw ↦ (hb.gen_eq hk hw).2⟩
  rcases controlStep (D := s.Dialed) hb.session hb.hubOwned hb.call hs with
    ⟨ha, hl⟩ | ⟨hc, hub, hl⟩ | ⟨ha, hub, hconn, howner, hnext, hl⟩ | ⟨hl, heq⟩ | ⟨hla, hl, hidle⟩ |
    ⟨w, hcl, hl⟩
  · exact calm ha.toCalm hl (by rw [ha.hub]) fun r hr ↦ ⟨by rwa [← ha.hub], ha.hub⟩
  · exact calm hc hl hub.spec.2.1 fun r hr ↦ by cases (noroute hub).symm.trans hr
  · refine h.of_apart ha hb.clean (fun w ↦ .inl ?_) (fun w _ _ ↦ .inr (.inr hl)) (fun w _ ho ↦ ?_)
      fun r hr ↦ by cases (noroute hub).symm.trans hr
    · rw [follow_reconnect fun w hw hlt ↦ absurd hlt (by rw [hnext]; exact Nat.not_lt.2 hw)]
    · cases howner.symm.trans ho.2
  · -- the close of the connection
    obtain ⟨-, hnext, -, hhub, howner, -⟩ := closeConnection_keeps s.server k
    rw [← heq] at hnext hhub howner
    have hnone := hb.owner_of_leaving hl
    have hrec := follow_reconnect (s := s) (u := u)
      fun w hw hlt ↦ absurd hlt (by rw [hnext]; exact Nat.not_lt.2 hw)
    refine h.of_emptied rfl ?_ (fun c hc ↦ ?_) (fun w ↦ .inl (by rw [hrec])) (fun w c _ ho ↦ ?_) ?_
    · rw [State.slot, show (s.follow u).server = u.server from rfl, heq]
      exact closeConnection_control_slot h.closed
    · rw [show (s.follow u).server = u.server from rfl, heq]
      exact closeConnection_control (fun x hx hs ↦ (hb.clean.2 x hx c hs).1 hc) h.closed
    · cases (howner.trans hnone).symm.trans ho.2
    · rw [show (s.follow u).server = u.server from rfl, hhub]
      by_contra hr
      obtain ⟨r, hr⟩ := Option.ne_none_iff_exists'.1 hr
      obtain ⟨-, w, hw, -⟩ := hb.active (h.route r hr).1
      cases hnone.symm.trans hw.2
  · have hrec := follow_reconnect_of_launches hla
    have hnew : (s.follow u).Owner k s.server.nextWorker := by
      refine ⟨by rw [hrec, Function.update_self]; rintro ⟨⟩, ?_⟩
      rw [show (s.follow u).server = u.server from rfl, hla.owner, hla.new.2.2.2.2]
    have hidle' : s.reconnect s.server.nextWorker = .idle := by
      by_contra hne
      exact Nat.lt_irrefl _ (hb.launched _ hne).1
    refine h.of_apart hla.toApart hb.clean (fun w ↦ ?_) (fun w hw _ ↦ ?_) (fun w hw ho ↦ ?_)
      fun r hr ↦ ?_
    · rw [hrec]
      obtain rfl | hne := eq_or_ne w s.server.nextWorker
      · exact .inr ⟨hidle', Function.update_self ..⟩
      · exact .inl (Function.update_of_ne hne ..)
    · -- the new owner has still to empty the slot
      exact .inr (.inl ⟨_, (hb.launched w hw).1, hnew, by rw [hrec, Function.update_self]⟩)
    · obtain rfl := hb'.owner_unique ho hnew
      exact absurd hidle' hw
    · obtain ⟨ok, hhub⟩ := hla.hub
      rw [Hub.beginScreenSession_of_inactive (hb.inactive_of_idle hidle)] at hhub
      rw [hhub] at hr
      cases hr
  · -- the owner closes the control socket
    obtain ⟨hslot, hclosed⟩ := closeControlConn_slot s.server.clearControl k
    obtain ⟨-, hnext, hhub, howner, -⟩ := closeControlConn_keeps s.server.clearControl k
      ((s.server.connection k).slot .control)
    have hnext' : u.server.nextWorker = s.server.nextWorker := by
      rw [hcl.step]
      exact hnext
    have hrec := follow_reconnect (s := s) (u := u)
      fun w hw hlt ↦ absurd hlt (by rw [hnext']; exact Nat.not_lt.2 hw)
    have heq : (s.follow u).server = _ := hcl.step
    refine h.of_emptied rfl ?_ (fun c hc ↦ ?_) (fun w ↦ .inl (by rw [hrec])) (fun v c _ ho ↦ ?_) ?_
    · rw [State.slot, heq]
      exact hslot
    · rw [heq]
      exact hclosed c
    · have ho := ho.2
      rw [heq] at ho
      cases howner.symm.trans ho
    · rw [heq]
      by_contra hr
      obtain ⟨r, hr⟩ := Option.ne_none_iff_exists'.1 hr
      obtain ⟨hl, hx, hp⟩ := hcl.worker
      have hr' : s.server.hub.controlRoute = some r :=
        (congrArg Hub.controlRoute hhub).symm.trans hr
      have hb := (hb.hubOwned.worker (h.route r hr').1 w hl hx).1
      rw [hp] at hb
      cases hb

/-! ### The steps of the goroutines -/

/-- A section that changes only control sockets and the control slot. -/
structure SocketsOnly (k : ConnId) (s t : Server) : Prop where
  /-- The workers are kept. -/
  worker : t.worker = s.worker ∧ t.nextWorker = s.nextWorker
  /-- The connection is kept. -/
  conn : t.connected = s.connected ∧ t.conn = s.conn
  /-- The streams are kept. -/
  stream : t.stream = s.stream
  /-- The owner is kept. -/
  owner : t.controlOwner = s.controlOwner
  /-- The hub's session is kept. -/
  hub : t.hub.screenActive = s.hub.screenActive ∧ t.hub.screenGeneration = s.hub.screenGeneration
  /-- The other slots are kept. -/
  slot : ∀ x, x ≠ .control → (t.connection k).slot x = (s.connection k).slot x
  /-- The connection is neither closed nor opened. -/
  closed : (t.connection k).closed = (s.connection k).closed
  /-- Sockets may be allocated. -/
  nextSocket : s.nextSocket ≤ t.nextSocket

namespace SocketsOnly

theorem refl (k : ConnId) (s : Server) : SocketsOnly k s s :=
  ⟨⟨rfl, rfl⟩, ⟨rfl, rfl⟩, rfl, rfl, ⟨rfl, rfl⟩, fun _ _ ↦ rfl, rfl, Nat.le_refl _⟩

theorem setSlot (s : Server) (socket : Option SocketId) :
    SocketsOnly k s (s.setSlot k .control socket) :=
  { refl k s with
    slot := fun x hx ↦ by
      rw [Server.setSlot_slot]
      exact if_neg fun h ↦ hx h.2
    closed := s.setSlot_closed .. }

theorem closeSocket {s t : Server} (h : SocketsOnly k s t) (socket : Option SocketId) :
    SocketsOnly k s (t.closeSocket socket) :=
  { h with }

theorem closeControlConn (s : Server) (socket : Option SocketId) :
    SocketsOnly k s (s.closeControlConn k socket) := by
  rcases socket with _ | c
  · exact refl k s
  · rw [Server.closeControlConn]
    refine closeSocket ?_ _
    split
    · exact setSlot s none
    · exact refl k s

end SocketsOnly

/-- A section of a goroutine keeps the owner. -/
theorem Base.of_socketsOnly (h : Base k s) (hs : SocketsOnly k s.server t.server)
    (hcall : t.session.call = s.session.call)
    (hrec : ∀ w, t.reconnect w ≠ .idle ↔ s.reconnect w ≠ .idle)
    (hdialed : ∀ c, t.Dialed c → c < t.server.nextSocket ∧
      (s.Dialed c ∨ s.server.nextSocket ≤ c)) : Base k t := by
  have hk : Kept s t :=
    ⟨hrec, Nat.le_of_eq hs.worker.2.symm, fun w _ ↦ ⟨_, congrFun hs.worker.1 w⟩, hs.hub.2⟩
  have hnot {c : SocketId} (hc : ¬s.Dialed c ∧ c < s.server.nextSocket) :
      ¬t.Dialed c ∧ c < t.server.nextSocket :=
    ⟨fun hd ↦ (hdialed c hd).2.elim hc.1 (Nat.not_le.2 hc.2),
      Nat.lt_of_lt_of_le hc.2 hs.nextSocket⟩
  have hlive (x : StreamId) : t.server.liveOn x = s.server.liveOn x := by
    funext w
    refine Option.ext fun a ↦ ?_
    rw [Server.liveOn_eq_some_iff, Server.liveOn_eq_some_iff, hs.worker.1,
      Server.live_congr w hs.worker.1 hs.worker.2]
  have hlane (x : StreamId) (hx : x ≠ .control) : t.session.lane k x = s.session.lane k x := by
    have hclaim : t.session.claim x = s.session.claim x := by
      funext c
      rw [Session.State.claim, Session.State.claim, hcall]
    rw [Session.State.lane, Session.State.lane, Server.lane, Server.lane, hlive, hclaim,
      show t.session.server = t.server from rfl, hs.conn.2, hs.stream, hs.slot x hx]
  have hsession : SessionInv k t.session := by
    refine ⟨⟨?_, fun j hj ↦ ?_, fun hk ↦ ?_, fun w hw ↦ ?_⟩, fun c ↦ ?_, fun c conn dones hc ↦ ?_,
      ?_, fun x hx ↦ ?_⟩
    · rw [hs.conn.1, hs.conn.2]
      exact h.session.shared.connected
    · exact h.session.shared.conn j (hs.conn.2 ▸ hj)
    · rw [hs.closed]
      exact h.session.shared.opened (hs.conn.2 ▸ hk)
    · rw [hs.worker.1]
      exact h.session.shared.worker w ((Server.live_congr w hs.worker.1 hs.worker.2).1 hw)
    · rw [hcall]
      exact h.session.phase c
    · rw [hcall] at hc
      exact hs.conn.2.trans (h.session.closing c conn dones hc)
    · rw [hs.stream]
      exact h.session.control
    · rw [hlane x hx]
      exact h.session.lane x hx
  refine h.of_kept hk hsession ⟨fun c hc ↦ (hdialed c hc).1, fun x hx c hc ↦ ?_⟩ (fun c i hi ↦ ?_)
    (fun ho ↦ ?_) fun ha ↦ ?_
  · rw [hs.slot x hx] at hc
    exact hnot (h.clean.2 x hx c hc)
  · rw [hcall] at hi
    exact hnot (h.call c i hi)
  · rw [hs.owner] at ho
    obtain ⟨hconn, w, hw, hp⟩ := h.owner ho
    exact ⟨hs.conn.2.trans hconn, w, (h.owner_iff hk hs.owner).2 hw, by rwa [hs.worker.1]⟩
  · rw [hs.hub.1] at ha
    obtain ⟨hgen, w, hw, heq, hp⟩ := h.active ha
    rw [hs.stream, hs.hub.2, hs.worker.1]
    exact ⟨hgen, w, (h.owner_iff hk hs.owner).2 hw, heq, hp⟩

/-- The clause of `Sockets` about the registered route. -/
def RouteIn (k : ConnId) (s : State) : Prop :=
  ∀ r, s.server.hub.controlRoute = some r → s.server.hub.screenActive = true ∧
    (s.server.hub.route r).generation = s.server.hub.screenGeneration ∧
    (s.server.hub.route r).closed = false ∧
    ∃ c w, s.routeSocket r = some c ∧ s.dialer c = some w ∧ s.slot k = some c ∧
      s.reconnect w = .done ∧ (s.server.worker w).hubGen = s.server.hub.screenGeneration

theorem dialer_of_handing (h : Sockets k s) {c : SocketId}
    (hc : (s.reconnect w).handing = some c) : s.dialer c = some w := by
  have hcc : (s.reconnect w).controlConn = some (some c) := by
    rcases hp : s.reconnect w with _ | _ | _ | d | cc | cc | cc | _ <;> rw [hp] at hc
    case checking => exact congrArg some hc
    case registering => exact congrArg some hc
    all_goals cases hc
  obtain ⟨d, hd, hdial⟩ := h.after w (some c) hcc
  rwa [Option.some.inj hd]

/-- A section of the goroutine `w` that does nothing but close its own socket. -/
theorem Sockets.of_own (h : Sockets k s) (hb : Base k s) {p : Phase}
    (hs : SocketsOnly k s.server t.server) (hcall : t.session.call = s.session.call)
    (hdialer : t.dialer = s.dialer) (hrec : t.reconnect = Function.update s.reconnect w p)
    (hother : ∀ c v, s.dialer c = some v → v ≠ w →
      t.server.socketClosed c = s.server.socketClosed c ∧ (t.slot k = some c ↔ s.slot k = some c))
    (hown : ∀ c, s.dialer c = some w → (t.server.socketClosed c = true ∧ t.slot k ≠ some c) ∨
      (t.server.socketClosed c = s.server.socketClosed c ∧
        (t.slot k = some c ↔ s.slot k = some c) ∧ s.reconnect w ≠ .dialed c))
    (hslot : ∀ c, t.slot k = some c → s.slot k = some c)
    (hp : ∀ c, p ≠ .dialed c) (hafter : (s.reconnect w).afterDial = true → p.afterDial = true)
    (hcc : ∀ cc, p.controlConn = some cc → (s.reconnect w).controlConn = some cc)
    (hhanding : ∀ c, p.handing = some c → (s.reconnect w).handing = some c ∧ t.slot k = s.slot k)
    (hidle : s.reconnect w ≠ .idle) (hp' : p ≠ .idle)
    (hentering : s.reconnect w = .entering → ¬s.Owner k w) (hroute : RouteIn k t) :
    Sockets k t := by
  have hself : t.reconnect w = p := by rw [hrec, Function.update_self]
  have hne {v : WorkerId} (hv : v ≠ w) : t.reconnect v = s.reconnect v := by
    rw [hrec, Function.update_of_ne hv]
  have hk : Kept s t := by
    refine ⟨fun v ↦ ?_, Nat.le_of_eq hs.worker.2.symm, fun v _ ↦ ⟨_, congrFun hs.worker.1 v⟩,
      hs.hub.2⟩
    obtain rfl | hv := eq_or_ne v w
    · rw [hself]
      exact iff_of_true hp' hidle
    · rw [hne hv]
  have howner (v : WorkerId) : t.Owner k v ↔ s.Owner k v := hb.owner_iff hk hs.owner
  constructor
  case slot =>
    intro c hc
    obtain ⟨hopen, v, hv, hmay⟩ := h.slot c (hslot c hc)
    refine ⟨?_, v, by rw [hdialer, hv], hmay.imp (howner v).2 (Or.imp ?_ ?_)⟩
    · obtain rfl | hvw := eq_or_ne v w
      · obtain ⟨-, hno⟩ | ⟨hcl, -⟩ := hown c hv
        · exact absurd hc hno
        · exact hcl.trans hopen
      · exact (hother c v hv hvw).1.trans hopen
    · rintro ⟨x, hvx, hx, he⟩
      have hxw : x ≠ w := by
        rintro rfl
        exact hentering he hx
      exact ⟨x, hvx, (howner x).2 hx, (hne hxw).trans he⟩
    · rintro ⟨d, conn, dones, hd⟩
      exact ⟨d, conn, dones, by rw [hcall, hd]⟩
  case ledger =>
    intro c v hc
    rw [hdialer] at hc
    obtain rfl | hvw := eq_or_ne v w
    · obtain ⟨hcl, -⟩ | ⟨hcl, hin, hnd⟩ := hown c hc
      · exact .inl hcl
      · rw [hcl, hin]
        exact (h.ledger c v hc).imp_right (Or.imp_right fun hd ↦ absurd hd hnd)
    · obtain ⟨hcl, hin⟩ := hother c v hc hvw
      rw [hcl, hin, hne hvw]
      exact h.ledger c v hc
  case dialed =>
    intro c v hc
    have hvw : v ≠ w := by
      rintro rfl
      exact hp c (hself.symm.trans hc)
    rw [hne hvw] at hc
    obtain ⟨hd, hopen, hnot⟩ := h.dialed c v hc
    obtain ⟨hcl, hin⟩ := hother c v hd hvw
    exact ⟨by rw [hdialer, hd], hcl.trans hopen, fun h ↦ hnot (hin.1 h)⟩
  case after =>
    intro v cc hc
    rw [hdialer]
    obtain rfl | hvw := eq_or_ne v w
    · rw [hself] at hc
      exact h.after v cc (hcc cc hc)
    · rw [hne hvw] at hc
      exact h.after v cc hc
  case held =>
    intro c v hc ho
    have ho := (howner v).1 ho
    obtain rfl | hvw := eq_or_ne v w
    · rw [hself] at hc
      obtain ⟨hold, hsame⟩ := hhanding c hc
      rw [hsame]
      exact h.held c v hold ho
    · rw [hne hvw] at hc
      exact (hother c v (dialer_of_handing h hc) hvw).2.2 (h.held c v hc ho)
  case single =>
    intro c d v hc hd
    rw [hdialer] at hc hd
    exact h.single c d v hc hd
  case dialer =>
    intro c v hc
    rw [hdialer] at hc
    obtain rfl | hvw := eq_or_ne v w
    · rw [hself]
      exact hafter (h.dialer c v hc)
    · rw [hne hvw]
      exact h.dialer c v hc
  case route => exact hroute
  case closed =>
    intro hc
    rw [hs.closed] at hc
    have hnone := h.closed hc
    by_contra hsome
    obtain ⟨c, hc⟩ := Option.ne_none_iff_exists'.1 hsome
    cases hnone.symm.trans (hslot c hc)

/-- The registered route is kept by a section of another goroutine. -/
theorem Sockets.routeIn (h : Sockets k s) {p : Phase} (hdialer : t.dialer = s.dialer)
    (hsocket : t.routeSocket = s.routeSocket) (hrec : t.reconnect = Function.update s.reconnect w p)
    (hhub : t.server.hub = s.server.hub) (hworker : t.server.worker = s.server.worker)
    (hdone : s.reconnect w ≠ .done)
    (hslot : ∀ c v, s.dialer c = some v → v ≠ w → s.slot k = some c → t.slot k = some c) :
    RouteIn k t := by
  intro r hr
  rw [hhub] at hr ⊢
  obtain ⟨ha, hg, hopen, c, v, hsock, hd, hin, hv, hgen⟩ := h.route r hr
  have hvw : v ≠ w := by
    rintro rfl
    exact hdone hv
  refine ⟨ha, hg, hopen, c, v, by rw [hsocket, hsock], by rw [hdialer, hd],
    hslot c v hd hvw hin, ?_,
    by rw [hworker, hgen]⟩
  rw [hrec, Function.update_of_ne hvw, hv]

theorem put_ne_idle {srv : Server} {p : Phase} (hidle : s.reconnect w ≠ .idle) (hp : p ≠ .idle)
    (v : WorkerId) : (s.put w (srv, p)).reconnect v ≠ .idle ↔ s.reconnect v ≠ .idle := by
  obtain rfl | hv := eq_or_ne v w
  · rw [show (s.put v (srv, p)).reconnect v = p from Function.update_self ..]
    exact iff_of_true hp hidle
  · rw [show (s.put w (srv, p)).reconnect v = s.reconnect v from Function.update_of_ne hv ..]

/-- A goroutine goes on. -/
theorem Base.put (h : Base k s) {srv : Server} {p : Phase} (hidle : s.reconnect w ≠ .idle)
    (hs : SocketsOnly k s.server srv) (hp : p ≠ .idle) : Base k (s.put w (srv, p)) :=
  h.of_socketsOnly hs rfl (put_ne_idle hidle hp)
    fun c hc ↦ ⟨Nat.lt_of_lt_of_le (h.clean.1 c hc) hs.nextSocket, .inl hc⟩

/-- A goroutine goes on and does nothing. -/
theorem Sockets.put_same (h : Sockets k s) (hb : Base k s) {p : Phase}
    (hidle : s.reconnect w ≠ .idle) (hdone : s.reconnect w ≠ .done)
    (hdialed : ∀ c, s.reconnect w ≠ .dialed c) (hp : ∀ c, p ≠ .dialed c) (hp' : p ≠ .idle)
    (hafter : (s.reconnect w).afterDial = true → p.afterDial = true)
    (hcc : ∀ cc, p.controlConn = some cc → (s.reconnect w).controlConn = some cc)
    (hhanding : ∀ c, p.handing = some c → (s.reconnect w).handing = some c)
    (hentering : s.reconnect w = .entering → ¬s.Owner k w) :
    Sockets k (s.put w (s.server, p)) :=
  h.of_own hb (.refl k _) rfl rfl rfl (fun _ _ _ _ ↦ ⟨rfl, .rfl⟩)
    (fun c _ ↦ .inr ⟨rfl, .rfl, hdialed c⟩) (fun _ hc ↦ hc) hp hafter hcc
    (fun c hc ↦ ⟨hhanding c hc, rfl⟩) hidle hp' hentering
    (h.routeIn rfl rfl rfl rfl rfl hdone fun _ _ _ _ hc ↦ hc)

/-- **The first section**: the owner empties the slot. -/
theorem Sockets.enter (h : Sockets k s) (hb : Base k s) (hp : s.reconnect w = .entering) :
    Base k (s.put w (s.server.reconnectEnter (s.server.worker w))) ∧
      Sockets k (s.put w (s.server.reconnectEnter (s.server.worker w))) := by
  have hidle : s.reconnect w ≠ .idle := by rw [hp]; rintro ⟨⟩
  obtain ⟨-, -, hconn, -⟩ := hb.launched w hidle
  rw [Server.reconnectEnter, hconn]
  split
  · rename_i ho
    have howner : s.Owner k w := ⟨hidle, Server.ownsControl_iff.1 ho⟩
    refine ⟨hb.put hidle ((SocketsOnly.setSlot _ none).closeSocket _) (by rintro ⟨⟩),
      h.of_emptied rfl ?_ (fun c _ ↦ rfl) (fun v ↦ ?_) (fun v c hc hv ↦ ?_) ?_⟩
    · exact (s.server.closeStream_slot k k .control .control).trans (if_pos ⟨rfl, rfl⟩)
    · obtain rfl | hv := eq_or_ne v w
      · exact .inr ⟨hp, Function.update_self ..⟩
      · exact .inl (Function.update_of_ne hv ..)
    · have hvw : v ≠ w := by
        rintro rfl
        rw [hp] at hc
        cases hc
      have hv' : s.Owner k v := by
        refine ⟨fun hi ↦ ?_, hv.2⟩
        rw [hi] at hc
        cases hc
      exact hvw (hb.owner_unique hv' howner)
    · -- a route would have been registered by this goroutine
      by_contra hr
      obtain ⟨r, hr⟩ := Option.ne_none_iff_exists'.1 hr
      obtain ⟨ha, -, -, c, v, -, hd, -, hdone, hgen⟩ := h.route r hr
      obtain ⟨-, x, hx, hgen', -⟩ := hb.active ha
      obtain rfl := hb.hubGen_inj hx.1 (ne_idle_of_afterDial (h.dialer c v hd))
        (hgen'.trans hgen.symm)
      obtain rfl := hb.owner_unique hx howner
      cases hp.symm.trans hdone
  · rename_i ho
    have hnot : ¬s.Owner k w := fun h ↦ ho (Server.ownsControl_iff.2 h.2)
    exact ⟨hb.put hidle (.refl k _) (by rintro ⟨⟩), h.put_same hb hidle (by rw [hp]; rintro ⟨⟩)
      (fun c ↦ by rw [hp]; rintro ⟨⟩) (fun c ↦ by rintro ⟨⟩) (by rintro ⟨⟩)
      (fun ha ↦ by rw [hp] at ha; cases ha) (fun cc hc ↦ by cases hc) (fun c hc ↦ by cases hc)
      fun _ ↦ hnot⟩

/-- **The dial**: the new socket is in the hands of its goroutine. -/
theorem Sockets.dial (h : Sockets k s) (hb : Base k s) (hp : s.reconnect w = .dialing) :
    Base k { s.put w (s.server.dialSocket, .dialed s.server.nextSocket) with
        dialer := Function.update s.dialer s.server.nextSocket (some w) } ∧
      Sockets k { s.put w (s.server.dialSocket, .dialed s.server.nextSocket) with
        dialer := Function.update s.dialer s.server.nextSocket (some w) } := by
  have hidle : s.reconnect w ≠ .idle := by rw [hp]; rintro ⟨⟩
  generalize hn : s.server.nextSocket = n
  generalize ht : ({ s.put w (s.server.dialSocket, .dialed n) with
    dialer := Function.update s.dialer n (some w) } : State) = t
  have hserver : t.server = s.server.dialSocket := by rw [← ht]; rfl
  have hslot : t.slot k = s.slot k := by rw [State.slot, hserver]; rfl
  have hself : t.reconnect w = .dialed n := by rw [← ht]; exact Function.update_self ..
  have hne {v : WorkerId} (hv : v ≠ w) : t.reconnect v = s.reconnect v := by
    rw [← ht]
    exact Function.update_of_ne hv ..
  have hfresh {c : SocketId} {v : WorkerId} (hc : s.dialer c = some v) : c < n :=
    hn ▸ hb.clean.1 c ⟨v, hc⟩
  -- a control socket is the new one, or was dialed by another goroutine
  have hdialer {c : SocketId} {v : WorkerId} :
      t.dialer c = some v ↔ (c = n ∧ v = w) ∨ (c ≠ n ∧ v ≠ w ∧ s.dialer c = some v) := by
    rw [← ht]
    simp only [Function.update_apply]
    split
    · rename_i hc
      rw [Option.some.injEq]
      exact ⟨fun hv ↦ .inl ⟨hc, hv.symm⟩, fun h ↦ h.elim (fun h ↦ h.2.symm) fun h ↦ absurd hc h.1⟩
    · rename_i hc
      refine ⟨fun hv ↦ .inr ⟨hc, ?_, hv⟩, fun h ↦ h.elim (fun h ↦ absurd h.1 hc) fun h ↦ h.2.2⟩
      rintro rfl
      have ha := h.dialer c v hv
      rw [hp] at ha
      cases ha
  have hclosed {c : SocketId} (hc : c ≠ n) :
      t.server.socketClosed c = s.server.socketClosed c := by
    rw [hserver]
    exact Function.update_of_ne (hn ▸ hc) ..
  have howner (v : WorkerId) : t.Owner k v ↔ s.Owner k v := by
    rw [State.Owner, State.Owner, hserver]
    refine and_congr_left' ?_
    obtain rfl | hv := eq_or_ne v w
    · exact iff_of_true (by rw [hself]; rintro ⟨⟩) hidle
    · rw [hne hv]
  have hsocketsOnly : SocketsOnly k s.server t.server := by
    rw [hserver]
    exact { SocketsOnly.refl k s.server with nextSocket := Nat.le_succ _ }
  refine ⟨hb.of_socketsOnly hsocketsOnly (by rw [← ht]; rfl) (fun v ↦ ?_) ?_, ?_⟩
  · obtain rfl | hv := eq_or_ne v w
    · exact iff_of_true (by rw [hself]; rintro ⟨⟩) hidle
    · rw [hne hv]
  · rintro c ⟨v, hc⟩
    rw [hserver, show s.server.dialSocket.nextSocket = s.server.nextSocket + 1 from rfl, hn]
    obtain ⟨rfl, -⟩ | ⟨-, -, hc⟩ := hdialer.1 hc
    · exact ⟨Nat.lt_succ_self _, .inr (Nat.le_refl _)⟩
    · exact ⟨Nat.lt_succ_of_lt (hfresh hc), .inl ⟨v, hc⟩⟩
  constructor
  case slot =>
    intro c hc
    obtain ⟨hopen, v, hv, hmay⟩ := h.slot c (hslot.symm.trans hc)
    have hcn := Nat.ne_of_lt (hfresh hv)
    have hvw : v ≠ w := by
      rintro rfl
      have ha := h.dialer c v hv
      rw [hp] at ha
      cases ha
    refine ⟨(hclosed hcn).trans hopen, v, hdialer.2 (.inr ⟨hcn, hvw, hv⟩),
      hmay.imp (howner v).2 (Or.imp ?_ ?_)⟩
    · rintro ⟨x, hvx, hx, he⟩
      have hxw : x ≠ w := by
        rintro rfl
        cases hp.symm.trans he
      exact ⟨x, hvx, (howner x).2 hx, (hne hxw).trans he⟩
    · rw [← ht]
      exact id
  case ledger =>
    intro c v hc
    obtain ⟨rfl, rfl⟩ | ⟨hcn, hvw, hc⟩ := hdialer.1 hc
    · exact .inr (.inr hself)
    · rw [hclosed hcn, hslot, hne hvw]
      exact h.ledger c v hc
  case dialed =>
    intro c v hc
    obtain rfl | hvw := eq_or_ne v w
    · obtain rfl : n = c := Phase.dialed.inj (hself.symm.trans hc)
      refine ⟨hdialer.2 (.inl ⟨rfl, rfl⟩), ?_, fun hin ↦ ?_⟩
      · rw [hserver, ← hn]
        exact Function.update_self ..
      · obtain ⟨-, x, hx, -⟩ := h.slot n (hslot.symm.trans hin)
        exact Nat.lt_irrefl _ (hfresh hx)
    · rw [hne hvw] at hc
      obtain ⟨hd, hopen, hnot⟩ := h.dialed c v hc
      have hcn := Nat.ne_of_lt (hfresh hd)
      exact ⟨hdialer.2 (.inr ⟨hcn, hvw, hd⟩), (hclosed hcn).trans hopen, by rwa [hslot]⟩
  case after =>
    intro v cc hc
    have hvw : v ≠ w := by
      rintro rfl
      rw [hself] at hc
      cases hc
    rw [hne hvw] at hc
    obtain ⟨c, rfl, hd⟩ := h.after v cc hc
    exact ⟨c, rfl, hdialer.2 (.inr ⟨Nat.ne_of_lt (hfresh hd), hvw, hd⟩)⟩
  case held =>
    intro c v hc ho
    have hvw : v ≠ w := by
      rintro rfl
      rw [hself] at hc
      cases hc
    rw [hne hvw] at hc
    rw [hslot]
    exact h.held c v hc ((howner v).1 ho)
  case single =>
    intro c d v hc hd
    obtain ⟨rfl, rfl⟩ | ⟨hcn, hvw, hc⟩ := hdialer.1 hc <;>
      obtain ⟨rfl, hv⟩ | ⟨hdn, hvw', hd⟩ := hdialer.1 hd
    · rfl
    · exact absurd rfl hvw'
    · exact absurd hv hvw
    · exact h.single c d v hc hd
  case dialer =>
    intro c v hc
    obtain ⟨rfl, rfl⟩ | ⟨-, hvw, hc⟩ := hdialer.1 hc
    · rw [hself]
      rfl
    · rw [hne hvw]
      exact h.dialer c v hc
  case route =>
    intro r hr
    rw [show t.server.hub = s.server.hub by rw [hserver]; rfl] at hr ⊢
    obtain ⟨ha, hg, hopen, c, v, hsock, hd, hin, hdone, hgen⟩ := h.route r hr
    have hvw : v ≠ w := by
      rintro rfl
      cases hp.symm.trans hdone
    refine ⟨ha, hg, hopen, c, v, ?_, hdialer.2 (.inr ⟨Nat.ne_of_lt (hfresh hd), hvw, hd⟩),
      hslot.trans hin, (hne hvw).trans hdone, ?_⟩
    · rw [← ht]
      exact hsock
    · rw [hserver]
      exact hgen
  case closed =>
    intro hc
    rw [hsocketsOnly.closed] at hc
    rw [hslot]
    exact h.closed hc

/-- The goroutine closes the socket in its hands. -/
theorem Sockets.drop (h : Sockets k s) (hb : Base k s) {c : SocketId}
    (hp : s.reconnect w = .dialed c) :
    Base k (s.put w (s.server.closeSocket (some c), .done)) ∧
      Sockets k (s.put w (s.server.closeSocket (some c), .done)) := by
  have hidle : s.reconnect w ≠ .idle := by rw [hp]; rintro ⟨⟩
  have hso : SocketsOnly k s.server (s.server.closeSocket (some c)) :=
    (SocketsOnly.refl k _).closeSocket _
  obtain ⟨hd, hopen, hnot⟩ := h.dialed c w hp
  refine ⟨hb.put hidle hso (by rintro ⟨⟩), h.of_own hb hso rfl rfl rfl (fun d v hv hvw ↦ ?_)
    (fun d hdw ↦ ?_) (fun _ hc ↦ hc) (fun _ ↦ by rintro ⟨⟩) (fun _ ↦ rfl)
    (fun _ hc ↦ by cases hc) (fun _ hc ↦ by cases hc) hidle (by rintro ⟨⟩)
    (fun he ↦ by cases hp.symm.trans he)
    (h.routeIn rfl rfl rfl rfl rfl (by rw [hp]; rintro ⟨⟩) fun _ _ _ _ hc ↦ hc)⟩
  · refine ⟨?_, .rfl⟩
    have hcd : some c ≠ some d := by
      rintro ⟨⟩
      exact hvw (Option.some.inj (hv.symm.trans hd))
    exact (s.server.closeSocket_socketClosed _ d).trans (by rw [decide_eq_false hcd, Bool.or_false])
  · obtain rfl := h.single d c w hdw hd
    refine .inl ⟨?_, hnot⟩
    exact (s.server.closeSocket_socketClosed _ d).trans (by rw [decide_eq_true rfl, Bool.or_true])

/-- The slot is empty when the owner has dialed. -/
theorem Sockets.empty_of_dialed (h : Sockets k s) (hb : Base k s) {c : SocketId}
    (hp : s.reconnect w = .dialed c) (ho : s.Owner k w) : s.slot k = none := by
  by_contra hsome
  obtain ⟨d, hin⟩ := Option.ne_none_iff_exists'.1 hsome
  obtain ⟨hd, -, hnot⟩ := h.dialed c w hp
  obtain ⟨-, v, hv, howner | ⟨x, -, hx, he⟩ | hl⟩ := h.slot d hin
  · obtain rfl := hb.owner_unique howner ho
    obtain rfl := h.single d c v hv hd
    exact hnot hin
  · obtain rfl := hb.owner_unique hx ho
    cases hp.symm.trans he
  · cases (hb.owner_of_leaving hl).symm.trans ho.2

/-- An install into the empty slot of an open connection. -/
theorem installStream_of_empty {s : Server} (c : SocketId)
    (hopen : (s.connection k).closed = false) (hnone : (s.connection k).slot .control = none) :
    s.installStream k .control c = ((s.setSlot k .control (some c)).closeSocket none, true) := by
  rw [Server.installStream, if_neg (by rw [hopen]; decide)]
  simp only [hnone]
  rw [if_neg (by rintro ⟨⟩)]

/-- **The install**: the owner fills the empty slot, anybody else closes its socket. -/
theorem Sockets.install (h : Sockets k s) (hb : Base k s) {c : SocketId}
    (hp : s.reconnect w = .dialed c) :
    Base k (s.put w (s.server.reconnectInstall (s.server.worker w) c)) ∧
      Sockets k (s.put w (s.server.reconnectInstall (s.server.worker w) c)) := by
  have hidle : s.reconnect w ≠ .idle := by rw [hp]; rintro ⟨⟩
  obtain ⟨-, -, hconn, -⟩ := hb.launched w hidle
  rw [Server.reconnectInstall, hconn]
  split
  · exact h.drop hb hp
  rename_i hown
  rw [not_or, Bool.not_eq_false] at hown
  have ho : s.Owner k w := ⟨hidle, Server.ownsControl_iff.1 hown.1⟩
  have hopen := hb.session.shared.opened (hb.conn_of_owner ho)
  have hnone := h.empty_of_dialed hb hp ho
  have hinstall := installStream_of_empty c hopen hnone
  simp only [hinstall]
  obtain ⟨hd, hclosed, -⟩ := h.dialed c w hp
  have hso : SocketsOnly k s.server ((s.server.setSlot k .control (some c)).closeSocket none) :=
    (SocketsOnly.setSlot _ _).closeSocket _
  have hin :
      (((s.server.setSlot k .control (some c)).closeSocket none).connection k).slot .control =
      some c :=
    (s.server.setSlot_slot k k .control .control (some c)).trans (if_pos ⟨rfl, rfl⟩)
  have hsame (d : SocketId) :
      ((s.server.setSlot k .control (some c)).closeSocket none).socketClosed d =
        s.server.socketClosed d :=
    (Server.closeSocket_socketClosed _ _ d).trans
      (by rw [decide_eq_false (by rintro ⟨⟩), Bool.or_false]; rfl)
  rw [hin]
  have hb' := hb.put hidle hso (p := .checking (some c)) (by rintro ⟨⟩)
  refine ⟨hb', ?_⟩
  generalize ht : s.put w ((s.server.setSlot k .control (some c)).closeSocket none,
    .checking (some c)) = t at hb' ⊢
  have hserver : t.server = (s.server.setSlot k .control (some c)).closeSocket none := by
    rw [← ht]
    rfl
  have hslot : t.slot k = some c := by rw [State.slot, hserver, hin]
  have hdialer : t.dialer = s.dialer := by rw [← ht]; rfl
  have hself : t.reconnect w = .checking (some c) := by
    rw [← ht]
    exact Function.update_self ..
  have hne {v : WorkerId} (hv : v ≠ w) : t.reconnect v = s.reconnect v := by
    rw [← ht]
    exact Function.update_of_ne hv ..
  have howner : t.Owner k w := by
    refine ⟨by rw [hself]; rintro ⟨⟩, ?_⟩
    rw [hserver]
    exact ho.2
  constructor
  case slot =>
    intro d hd'
    obtain rfl := Option.some.inj (hslot.symm.trans hd')
    rw [hserver, hsame, hdialer]
    exact ⟨hclosed, w, hd, .inl howner⟩
  case ledger =>
    intro d v hv
    rw [hdialer] at hv
    rw [hserver, hsame, hslot]
    obtain rfl | hvw := eq_or_ne v w
    · exact .inr (.inl (congrArg some (h.single c d v hd hv)))
    · rw [hne hvw]
      obtain hcl | hin' | hdl := h.ledger d v hv
      · exact .inl hcl
      · cases hnone.symm.trans hin'
      · exact .inr (.inr hdl)
  case dialed =>
    intro d v hv
    have hvw : v ≠ w := by
      rintro rfl
      cases hself.symm.trans hv
    rw [hne hvw] at hv
    obtain ⟨hdv, hop, -⟩ := h.dialed d v hv
    rw [hdialer, hserver, hsame, hslot]
    refine ⟨hdv, hop, ?_⟩
    rintro ⟨⟩
    exact hvw (Option.some.inj (hdv.symm.trans hd))
  case after =>
    intro v cc hcc
    rw [hdialer]
    obtain rfl | hvw := eq_or_ne v w
    · rw [hself] at hcc
      exact ⟨c, (Option.some.inj hcc).symm, hd⟩
    · rw [hne hvw] at hcc
      exact h.after v cc hcc
  case held =>
    intro d v hv hov
    obtain rfl := hb'.owner_unique hov howner
    rw [hself] at hv
    rw [hslot]
    exact hv
  case single =>
    intro d e v hv hv'
    rw [hdialer] at hv hv'
    exact h.single d e v hv hv'
  case dialer =>
    intro d v hv
    rw [hdialer] at hv
    obtain rfl | hvw := eq_or_ne v w
    · rw [hself]
      rfl
    · rw [hne hvw]
      exact h.dialer d v hv
  case route =>
    intro r hr
    rw [show t.server.hub = s.server.hub by rw [hserver]; rfl] at hr
    obtain ⟨-, -, -, d, v, -, -, hin', -⟩ := h.route r hr
    cases hnone.symm.trans hin'
  case closed =>
    intro hcl
    rw [hserver, hso.closed, hopen] at hcl
    cases hcl

/-- **The registration**: only the owner of the hub's session gets a route, over the socket in the
slot. -/
theorem Sockets.register (h : Sockets k s) (hb : Base k s) {cc : Option SocketId}
    (hp : s.reconnect w = .registering cc) (ok : Bool) :
    Base k (s.register w cc ok) ∧ Sockets k (s.register w cc ok) := by
  have hidle : s.reconnect w ≠ .idle := by rw [hp]; rintro ⟨⟩
  have hdone : s.reconnect w ≠ .done := by rw [hp]; rintro ⟨⟩
  have hdialed (c : SocketId) : s.reconnect w ≠ .dialed c := by rw [hp]; rintro ⟨⟩
  have hentering : s.reconnect w ≠ .entering := by rw [hp]; rintro ⟨⟩
  obtain ⟨c, rfl, hd⟩ := h.after w cc (by rw [hp]; rfl)
  rw [State.register]
  by_cases ha : s.server.hub.accepts (s.server.worker w).hubGen = true
  · obtain ⟨hub, err, heq, hactive, hgen, hcontrol, hrgen, hopen⟩ :=
      Hub.registerControlRoute_of_accepts ha ok
    simp only [heq]
    obtain ⟨hact, hwgen⟩ := Hub.accepts_iff.1 ha
    -- the goroutine of the hub's session is the owner
    obtain ⟨-, x, hx, hxgen, -⟩ := hb.active hact
    obtain rfl := hb.hubGen_inj hx.1 hidle (hxgen.trans hwgen.symm)
    have hin := h.held c x (by rw [hp]; rfl) hx
    have hso : SocketsOnly k s.server { s.server with hub } :=
      { SocketsOnly.refl k s.server with hub := ⟨hactive, hgen⟩ }
    refine ⟨hb.of_socketsOnly hso rfl (put_ne_idle hidle (by rintro ⟨⟩))
      fun d hd' ↦ ⟨hb.clean.1 d hd', .inl hd'⟩, ?_⟩
    refine h.of_own hb hso rfl rfl rfl (fun _ _ _ _ ↦ ⟨rfl, .rfl⟩)
      (fun d _ ↦ .inr ⟨rfl, .rfl, hdialed d⟩) (fun _ hc ↦ hc) (fun _ ↦ by rintro ⟨⟩) (fun _ ↦ rfl)
      (fun _ hc ↦ by cases hc) (fun _ hc ↦ by cases hc) hidle (by rintro ⟨⟩)
      (fun he ↦ absurd he hentering) fun r hr ↦ ?_
    obtain rfl := Option.some.inj (hcontrol.symm.trans hr)
    exact ⟨hactive.trans hact, hrgen.trans (hwgen.trans hgen.symm), hopen, c, x,
      Function.update_self .., hd, hin, Function.update_self .., hwgen.trans hgen.symm⟩
  · rw [Hub.registerControlRoute_of_not_accepts (eq_false_of_ne_true ha)]
    exact ⟨hb.put hidle (.refl k _) (by rintro ⟨⟩), h.put_same hb hidle hdone hdialed
      (fun _ ↦ by rintro ⟨⟩) (by rintro ⟨⟩) (fun _ ↦ rfl)
      (fun d hc ↦ by rw [hp]; exact hc) (fun _ hc ↦ by cases hc) fun he ↦ absurd he hentering⟩

/-- **The close**: a goroutine without a route closes its own socket. -/
theorem Sockets.close (h : Sockets k s) (hb : Base k s) {cc : Option SocketId}
    (hp : s.reconnect w = .closing cc) :
    Base k (s.put w (s.server.closeControlConn (s.server.worker w).conn cc, .done)) ∧
      Sockets k (s.put w (s.server.closeControlConn (s.server.worker w).conn cc, .done)) := by
  have hidle : s.reconnect w ≠ .idle := by rw [hp]; rintro ⟨⟩
  obtain ⟨-, -, hconn, -⟩ := hb.launched w hidle
  obtain ⟨c, rfl, hd⟩ := h.after w cc (by rw [hp]; rfl)
  rw [hconn]
  have hso := SocketsOnly.closeControlConn (k := k) s.server (some c)
  have hslot := closeControlConn_slot_iff s.server k c
  have hclosed := closeControlConn_socketClosed s.server k c
  have hother {d : SocketId} {v : WorkerId} (hv : s.dialer d = some v) (hvw : v ≠ w) : d ≠ c := by
    rintro rfl
    exact hvw (Option.some.inj (hv.symm.trans hd))
  refine ⟨hb.put hidle hso (by rintro ⟨⟩), h.of_own hb hso rfl rfl rfl (fun d v hv hvw ↦ ?_)
    (fun d hdw ↦ ?_) (fun d hc ↦ ((hslot d).1 hc).1) (fun _ ↦ by rintro ⟨⟩) (fun _ ↦ rfl)
    (fun _ hc ↦ by cases hc) (fun _ hc ↦ by cases hc) hidle (by rintro ⟨⟩)
    (fun he ↦ by cases hp.symm.trans he)
    (h.routeIn rfl rfl rfl ?_ hso.worker.1 (by rw [hp]; rintro ⟨⟩)
      fun d v hv hvw hin ↦ (hslot d).2 ⟨hin, hother hv hvw⟩)⟩
  · have hdc := hother hv hvw
    refine ⟨(hclosed d).trans ?_, ⟨fun h ↦ ((hslot d).1 h).1, fun h ↦ (hslot d).2 ⟨h, hdc⟩⟩⟩
    rw [decide_eq_false fun h ↦ hdc (Option.some.inj h).symm, Bool.or_false]
  · obtain rfl := h.single d c w hdw hd
    refine .inl ⟨(hclosed d).trans ?_, fun h ↦ ((hslot d).1 h).2 rfl⟩
    rw [decide_eq_true rfl, Bool.or_true]
  · exact (closeControlConn_keeps s.server k (some c)).2.2.1

/-- **Every section of a goroutine keeps the invariants.** -/
theorem advance_inv (h : Sockets k s) (hb : Base k s) {ok : Bool} (hs : s.advance w ok = some t) :
    Base k t ∧ Sockets k t := by
  rw [State.advance] at hs
  rcases hp : s.reconnect w with _ | _ | _ | c | cc | cc | cc | _ <;> simp only [hp] at hs
  case idle | done => cases hs
  case entering =>
    cases hs
    exact h.enter hb hp
  case dialing =>
    split at hs <;> cases hs
    · exact h.dial hb hp
    · have hidle : s.reconnect w ≠ .idle := by rw [hp]; rintro ⟨⟩
      exact ⟨hb.put hidle (.refl k _) (by rintro ⟨⟩), h.put_same hb hidle (by rw [hp]; rintro ⟨⟩)
        (fun _ ↦ by rw [hp]; rintro ⟨⟩) (fun _ ↦ by rintro ⟨⟩) (by rintro ⟨⟩) (fun _ ↦ rfl)
        (fun _ hc ↦ by cases hc) (fun _ hc ↦ by cases hc) fun he ↦ by cases hp.symm.trans he⟩
  case dialed =>
    cases hs
    exact h.install hb hp
  case checking =>
    have hidle : s.reconnect w ≠ .idle := by rw [hp]; rintro ⟨⟩
    have hnext {p : Phase} (hp' : p ≠ .idle) (hpd : ∀ c, p ≠ .dialed c)
        (hafter : p.afterDial = true) (hcc : ∀ c, p.controlConn = some c → cc = c)
        (hhand : ∀ c, p.handing = some c → cc = some c) :
        Base k (s.put w (s.server, p)) ∧ Sockets k (s.put w (s.server, p)) :=
      ⟨hb.put hidle (.refl k _) hp', h.put_same hb hidle (by rw [hp]; rintro ⟨⟩)
        (fun _ ↦ by rw [hp]; rintro ⟨⟩) hpd hp' (fun _ ↦ hafter)
        (fun c hc ↦ by rw [hp, ← hcc c hc]; rfl) (fun c hc ↦ by rw [hp, ← hhand c hc]; rfl)
        fun he ↦ by cases hp.symm.trans he⟩
    split at hs <;> cases hs
    · exact hnext (by rintro ⟨⟩) (fun _ ↦ by rintro ⟨⟩) rfl (fun _ hc ↦ Option.some.inj hc)
        fun _ hc ↦ hc
    · exact hnext (by rintro ⟨⟩) (fun _ ↦ by rintro ⟨⟩) rfl (fun _ hc ↦ Option.some.inj hc)
        fun _ hc ↦ by cases hc
  case registering =>
    cases hs
    exact h.register hb hp ok
  case closing =>
    cases hs
    exact h.close hb hp

/-- A call of the hub from outside the controller. -/
theorem hub_inv (h : Sockets k s) (hb : Base k s) {hub : Hub}
    (hsame : s.server.hub.SameRoute hub) :
    Base k { s with session := { s.session with server := { s.server with hub } } } ∧
      Sockets k { s with session := { s.session with server := { s.server with hub } } } := by
  have hso : SocketsOnly k s.server { s.server with hub } :=
    { SocketsOnly.refl k s.server with hub := hsame.session }
  refine ⟨hb.of_socketsOnly hso rfl (fun _ ↦ .rfl) fun c hc ↦ ⟨hb.clean.1 c hc, .inl hc⟩,
    { h with route := fun r hr ↦ ?_ }⟩
  obtain ⟨ha, hg, hopen, hex⟩ := h.route r (hsame.controlRoute.symm.trans hr)
  refine ⟨hsame.session.1.trans ha, ?_, (hsame.route r).2.trans hopen, ?_⟩
  · exact (hsame.route r).1.trans (hg.trans hsame.session.2.symm)
  · obtain ⟨c, w, hsock, hd, hin, hdone, hgen⟩ := hex
    exact ⟨c, w, hsock, hd, hin, hdone, hgen.trans hsame.session.2.symm⟩

/-- **Every step keeps the invariants.** -/
theorem step_inv (h : Sockets k s) (hb : Base k s) {e : Event} (hs : step s e = some t) :
    Base k t ∧ Sockets k t := by
  rcases e with e | ⟨w, ok⟩ | ⟨op, ok⟩ <;> rw [step] at hs
  · obtain ⟨u, hu, rfl⟩ := Option.map_eq_some_iff.1 hs
    exact ⟨hb.session_step hu, h.session_step hb hu⟩
  · exact advance_inv h hb hs
  · split at hs <;> cases hs
    rename_i hop
    exact hub_inv h hb (Hub.SameRoute.perform _ hop ok)

/-- A session starts in the invariants. -/
theorem Starts.inv (h : Starts s) : ∃ k, Base k s ∧ Sockets k s := by
  obtain ⟨k, hi⟩ := h.session.inv
  have hnone : s.server.controlOwner = none := by
    rw [Server.controlOwner, h.owner]
    rfl
  have hdialed (c : SocketId) : ¬s.Dialed c := by
    rintro ⟨w, hw⟩
    cases (h.dialer c).symm.trans hw
  have hidle {w : WorkerId} {q : Prop} (hw : s.reconnect w ≠ .idle) : q := absurd (h.reconnect w) hw
  have hslot : s.slot k = none := by
    obtain ⟨⟨s₀, gen, ctx, j, socket, -, hmay, hj, hs⟩, -⟩ := h.session
    rw [connectCommit_of_idle hmay hj] at hs
    have hconn : s.server.conn = some j := congrArg Server.conn hs
    obtain rfl := hi.shared.conn j hconn
    have heq : s.server.connection j = s₀.connection j :=
      congrFun (congrArg Server.connection hs) j
    rw [State.slot, heq, hj]
    rfl
  refine ⟨k, ⟨hi, ⟨fun c hc ↦ absurd hc (hdialed c), fun x _ c hc ↦ ⟨hdialed c, h.slot k x c hc⟩⟩,
    fun c i hc ↦ ?_, fun w hw ↦ hidle hw, fun v w _ hv ↦ hidle hv, fun ho ↦ ?_, fun ha ↦ ?_⟩,
    fun c hc ↦ ?_, fun c w hc ↦ ?_, fun c w hc ↦ ?_, fun w cc hc ↦ ?_, fun c w hc ↦ ?_,
    fun c d w hc ↦ ?_, fun c w hc ↦ ?_, fun r hr ↦ ?_, fun _ ↦ hslot⟩
  · rw [h.session.2 c] at hc
    cases hc
  · rw [hnone] at ho
    cases ho
  · cases h.hub.1.symm.trans ha
  · cases hslot.symm.trans hc
  · cases (h.dialer c).symm.trans hc
  · cases (h.reconnect w).symm.trans hc
  · rw [h.reconnect w] at hc
    cases hc
  · rw [h.reconnect w] at hc
    cases hc
  · cases (h.dialer c).symm.trans hc
  · cases (h.dialer c).symm.trans hc
  · cases h.hub.2.symm.trans hr

end AllRelay.ScreenControl
