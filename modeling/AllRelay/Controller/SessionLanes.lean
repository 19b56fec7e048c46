import AllRelay.Controller.Lane
import AllRelay.Controller.Session

/-!
# The sections act on the lanes

`lane` reads the lane of a stream off the state of a session. Each section of a call and each step
of a worker is one of the operations of `Controller.Lane` on the lane of its own stream, and leaves
the lanes of the other streams alone. `SessionInv` is the invariant of the session: the invariant of
every lane, and what the lanes share, the one connection.
-/

open LabelledSystem

namespace AllRelay

open Session

/-! ### Every section but a commit is quiet -/

namespace Server.Frame

variable (s : Server) (x : StreamId)

theorem closeConnStream (conn : Option ConnId) : s.Frame (s.closeConnStream conn x) := by
  cases conn
  · exact refl s
  · exact closeStream ..

theorem startDial : s.Frame (s.startDial x).1 := by
  rw [Server.startDial]
  split
  · exact refl s
  · rename_i k _
    have h : s.Frame ((s.cancel (s.stream x).cancel).withCancel.setStream x
        { s.stream x with gen := (s.stream x).gen + 1, cancel := some s.nextCtx }) :=
      (cancelCtx ..).trans ((withCancel _).trans (setStream _ (Nat.le_succ _) id))
    simp only
    split
    · exact h.trans (closeStream ..)
    · exact h

theorem startEnter : s.Frame (s.startEnter x).1 := by
  rw [Server.startEnter]
  split
  · exact refl s
  simp only
  split
  · exact refl s
  split
  · have h : s.Frame (s.setStream x
        { s.stream x with cancel := none, gen := (s.stream x).gen + 1 }) :=
      setStream _ (Nat.le_succ _) id
    exact (h.trans (cancelCtx ..)).trans (closeConnStream ..)
  · exact startDial s x

theorem startResume (conn : Option ConnId) (waitGen : ℕ) :
    s.Frame (s.startResume x conn waitGen).1 := by
  rw [Server.startResume]
  split
  · exact refl s
  · have h : s.Frame (s.setStream x { s.stream x with done := none, running := false }) :=
      setStream _ (Nat.le_refl _) id
    exact h.trans (startDial _ x)

theorem startAbort (gen : ℕ) : s.Frame (s.startAbort x gen) := by
  rw [Server.startAbort]
  split
  · exact setStream _ (Nat.le_refl _) nofun
  · exact refl s

theorem startDialFailed (k : ConnId) (gen : ℕ) : s.Frame (s.startDialFailed x k gen) := by
  rw [Server.startDialFailed]
  split
  · exact startAbort ..
  · exact refl s

theorem stopEnter (ok : Bool) : s.Frame (s.stopEnter x ok).1 := by
  rw [Server.stopEnter]
  split
  · exact refl s
  have h : s.Frame (s.setStream x
      { s.stream x with cancel := none, gen := (s.stream x).gen + 1, active := false }) :=
    setStream _ (Nat.le_succ _) nofun
  simp only
  split
  · exact h
  · have hend (t : Server) : t.Frame (if x = .screen then t.endScreenSession ok else t) := by
      split
      · exact endScreenSession ..
      · exact refl t
    exact ((h.trans (hend _)).trans (cancelCtx ..)).trans (closeConnStream ..)

theorem stopFinish (gen : ℕ) : s.Frame (s.stopFinish x gen) := by
  rw [Server.stopFinish]
  split
  · exact setStream _ (Nat.le_refl _) nofun
  · exact refl s

end Server.Frame

/-! ### The lane of a stream -/

/-- The live workers of a stream. -/
def Server.liveOn (s : Server) (x : StreamId) (w : WorkerId) : Option Worker :=
  if s.Live w ∧ (s.worker w).stream = x then some (s.worker w) else none

/-- The lane of a stream on a connection, with given claims. -/
def Server.lane (s : Server) (k : ConnId) (x : StreamId) (claim : CallId → Option Claim) : Lane :=
  ⟨s.conn, s.stream x, (s.connection k).slot x, s.liveOn x, claim⟩

/-- The claim of a call on a stream. -/
def Session.Phase.claim (x : StreamId) : Phase → Option Claim
  | .joining y _ waitGen done => if y = x then some ⟨.join, waitGen, done⟩ else none
  | .dialing y _ gen _ => if y = x then some ⟨.dial, gen, none⟩ else none
  | .dialFailed y _ gen => if y = x then some ⟨.dial, gen, none⟩ else none
  | .dialed y _ gen _ _ => if y = x then some ⟨.dial, gen, none⟩ else none
  | .stopping y gen done => if y = x then some ⟨.stop, gen, done⟩ else none
  | _ => none

namespace Session

/-- A call has a claim on one stream at most. -/
theorem Phase.claim_single {p : Phase} {x : StreamId} {q : Claim}
    (h : ∀ y, p.claim y = if x = y then some q else none) :
    p.claim x = some q ∧ ∀ y, y ≠ x → p.claim y = none :=
  ⟨(h x).trans (if_pos rfl), fun y hy ↦ (h y).trans (if_neg (Ne.symm hy))⟩

/-- The claims of the calls on a stream. -/
def State.claim (s : State) (x : StreamId) (c : CallId) : Option Claim :=
  (s.call c).claim x

/-- The lane of a stream in a session. -/
def State.lane (s : State) (k : ConnId) (x : StreamId) : Lane :=
  s.server.lane k x (s.claim x)

theorem claim_put (s : State) (c : CallId) (r : Server × Phase) (x : StreamId) :
    (s.put c r).claim x = Function.update (s.claim x) c (r.2.claim x) := by
  funext d
  simp only [State.claim, State.put, Function.update_apply]
  split <;> rfl

theorem lane_put (s : State) (c : CallId) (r : Server × Phase) (k : ConnId) (x : StreamId) :
    (s.put c r).lane k x = r.1.lane k x (Function.update (s.claim x) c (r.2.claim x)) := by
  rw [State.lane, claim_put]
  rfl

end Session

namespace Server

variable (s : Server) (k j : ConnId) (x y : StreamId) (claim : CallId → Option Claim)

theorem liveOn_eq_some_iff {s : Server} {x : StreamId} {w : WorkerId} {a : Worker} :
    s.liveOn x w = some a ↔ s.Live w ∧ a = s.worker w ∧ a.stream = x := by
  rw [liveOn, Option.ite_none_right_eq_some, Option.some.injEq]
  constructor
  · rintro ⟨⟨hl, hx⟩, rfl⟩
    exact ⟨hl, rfl, hx⟩
  · rintro ⟨hl, rfl, hx⟩
    exact ⟨⟨hl, hx⟩, rfl⟩

/-- A `done` channel that was joined belongs to no live worker. -/
theorem liveOn_of_joined {s : Server} {done : Option WorkerId} (h : s.joined done = true)
    (x : StreamId) (w : WorkerId) (hw : done = some w) : s.liveOn x w = none := by
  rw [hw, joined, Option.all_some, decide_eq_true_eq] at h
  exact if_neg fun hl ↦ hl.1.2 h

/-! ### The lane after an operation -/

theorem lane_setStream (c : StreamController) :
    (s.setStream y c).lane k x claim =
      if x = y then { s.lane k x claim with sc := c } else s.lane k x claim := by
  rw [lane, setStream_stream]
  split <;> rfl

theorem lane_setStream_self (c : StreamController) :
    (s.setStream x c).lane k x claim = { s.lane k x claim with sc := c } := by
  rw [lane_setStream, if_pos rfl]

theorem lane_setStream_of_ne (h : x ≠ y) (c : StreamController) :
    (s.setStream y c).lane k x claim = s.lane k x claim := by
  rw [lane_setStream, if_neg h]

theorem lane_closeStream_self :
    (s.closeStream k x).lane k x claim = { s.lane k x claim with slot := none } := by
  rw [lane, closeStream_slot, if_pos ⟨rfl, rfl⟩]
  rfl

theorem lane_closeStream_of_ne (h : x ≠ y) :
    (s.closeStream j y).lane k x claim = s.lane k x claim := by
  rw [lane, closeStream_slot, if_neg fun hx ↦ h hx.2]
  rfl

theorem lane_closeConnStream_self {conn : Option ConnId} (h : conn = some k) :
    (s.closeConnStream conn x).lane k x claim = { s.lane k x claim with slot := none } := by
  rw [h]
  exact s.lane_closeStream_self k x claim

theorem lane_closeConnStream_of_ne (h : x ≠ y) (conn : Option ConnId) :
    (s.closeConnStream conn y).lane k x claim = s.lane k x claim := by
  cases conn
  · rfl
  · exact s.lane_closeStream_of_ne k _ x y claim h

theorem lane_cancel (ctx : Option CtxId) : (s.cancel ctx).lane k x claim = s.lane k x claim :=
  rfl

theorem lane_closeSocket (socket : Option SocketId) :
    (s.closeSocket socket).lane k x claim = s.lane k x claim :=
  rfl

theorem lane_endScreenSession_of_ne (h : x ≠ .screen) (ok : Bool) :
    (s.endScreenSession ok).lane k x claim = s.lane k x claim := by
  rw [endScreenSession]
  split
  · exact lane_setStream_of_ne _ k x _ claim h _
  · rfl

theorem lane_endScreenSession_self (ok : Bool) :
    (s.endScreenSession ok).lane k .screen claim =
      { s.lane k .screen claim with sc := { s.stream .screen with hubGen := 0 } } := by
  rw [endScreenSession]
  split
  · exact lane_setStream_self _ k .screen claim _
  · rename_i h
    rw [not_not] at h
    rw [← h]
    rfl

theorem lane_setPhase_of_ne {w : WorkerId} (h : (s.worker w).stream ≠ x) (phase : WorkerPhase) :
    (s.setPhase w phase).lane k x claim = s.lane k x claim := by
  have hlive : (s.setPhase w phase).liveOn x = s.liveOn x := by
    funext v
    simp only [liveOn, Live, setPhase_worker]
    obtain rfl | hv := eq_or_ne v w
    · simp [h]
    · simp only [if_neg hv]
      rfl
  rw [lane, hlive]
  rfl

theorem lane_setPhase_self {w : WorkerId} (h : (s.worker w).stream = x) (hw : w < s.nextWorker)
    (phase : WorkerPhase) :
    (s.setPhase w phase).lane k x claim = (s.lane k x claim).progress w
      (if phase = .exited then none else some { s.worker w with phase })
      (s.lane k x claim).slot := by
  have hlive : (s.setPhase w phase).liveOn x = Function.update (s.liveOn x) w
      (if phase = .exited then none else some { s.worker w with phase }) := by
    funext v
    simp only [liveOn, Live, setPhase_worker]
    obtain rfl | hv := eq_or_ne v w
    · rw [Function.update_self]
      simp only [if_true]
      by_cases hp : phase = .exited
      · rw [if_pos hp, if_neg fun hx ↦ hx.1.2 hp]
      · rw [if_neg hp]
        exact if_pos ⟨⟨hw, hp⟩, h⟩
    · rw [Function.update_of_ne hv]
      simp only [if_neg hv]
      rfl
  rw [lane, hlive]
  rfl

theorem lane_closeScreenControl_of_ne (h : x ≠ .control) (gen hubGen : ℕ) :
    (s.closeScreenControl j gen hubGen).lane k x claim = s.lane k x claim := by
  have hslot (t : Server) (socket : Option SocketId) :
      (t.closeControlConn j socket).lane k x claim = t.lane k x claim := by
    rcases socket with _ | c
    · rfl
    · simp only [closeControlConn, lane_closeSocket]
      split
      · rw [lane, setSlot_slot, if_neg fun hx ↦ h hx.2]
        rfl
      · rfl
  rw [closeScreenControl]
  split
  · exact hslot ..
  · rfl

end Server

namespace Session

/-! ### The invariant of a session -/

/-- What the lanes of a session share: one connection. -/
structure Shared (k : ConnId) (s : Server) : Prop where
  /-- `connected` says whether there is a connection. -/
  connected : s.connected = s.conn.isSome
  /-- The session has one connection. -/
  conn : ∀ j, s.conn = some j → j = k
  /-- It is open while it is the current one. -/
  opened : s.conn = some k → (s.connection k).closed = false
  /-- Every worker belongs to it, and the control stream has none. -/
  worker : ∀ w, s.Live w → (s.worker w).conn = k ∧ (s.worker w).stream ≠ .control

theorem Shared.frame {k : ConnId} {s t : Server} (h : Shared k s) (hf : s.Frame t) :
    Shared k t where
  connected := by rw [hf.connected, hf.conn, h.connected]
  conn j hj := h.conn j (hf.conn ▸ hj)
  opened hk := (hf.closed k).trans (h.opened (hf.conn ▸ hk))
  worker w hw := by
    obtain ⟨hs, phase, heq⟩ := hf.live w hw
    rw [heq]
    exact h.worker w hs

theorem Shared.conn_eq {k : ConnId} {s : Server} (h : Shared k s) (hc : s.connected = true) :
    s.conn = some k := by
  rw [h.connected] at hc
  obtain ⟨j, hj⟩ := Option.isSome_iff_exists.1 hc
  rw [hj, h.conn j hj]

/-- A call works on the connection of the session, and on a stream that can be toggled. -/
def Phase.On (k : ConnId) : Phase → Prop
  | .joining x conn _ _ => x ≠ .control ∧ conn = some k
  | .dialing x j _ _ => x ≠ .control ∧ j = k
  | .dialFailed x j _ => x ≠ .control ∧ j = k
  | .dialed x j _ _ socket => x ≠ .control ∧ j = k ∧ socket.isSome
  | .stopping x _ _ => x ≠ .control
  | .closing conn _ => conn = some k
  | _ => True

/-- The invariant of a session. -/
structure SessionInv (k : ConnId) (s : State) : Prop where
  /-- The connection. -/
  shared : Shared k s.server
  /-- The calls. -/
  phase : ∀ c, (s.call c).On k
  /-- The connection is closed after it is no longer the current one. -/
  closing : ∀ c conn dones, s.call c = .closing conn dones → s.server.conn = none
  /-- The control stream is never active. -/
  control : (s.server.stream .control).active = false
  /-- The lanes. -/
  lane : ∀ x, x ≠ .control → LaneInv (s.lane k x)

variable {k : ConnId} {s : State} {c : CallId}

/-- A section that changes neither the lane nor the claim of the call. -/
theorem lane_same {r : Server × Phase} {y : StreamId} (hclaim : r.2.claim y = (s.call c).claim y)
    (hlane : ∀ claim, r.1.lane k y claim = s.server.lane k y claim) :
    (s.put c r).lane k y = s.lane k y := by
  rw [lane_put, hlane, hclaim]
  exact congrArg _ (Function.update_eq_self ..)

/-- The result of a section on the stream `x`. -/
theorem SessionInv.put (hi : SessionInv k s) {r : Server × Phase} {x : StreamId}
    (hx : x ≠ .control) (hshared : Shared k r.1) (hconn : r.1.conn = s.server.conn)
    (hphase : r.2.On k)
    (hclosing : ∀ conn dones, r.2 ≠ .closing conn dones)
    (hother : ∀ y, y ≠ x → r.2.claim y = (s.call c).claim y ∧
      ∀ claim, r.1.lane k y claim = s.server.lane k y claim)
    (hself : LaneInv ((s.put c r).lane k x)) : SessionInv k (s.put c r) where
  shared := hshared
  phase d := by
    simp only [State.put, Function.update_apply]
    split
    · exact hphase
    · exact hi.phase d
  closing d conn dones hd := by
    have hdc : d ≠ c := by
      rintro rfl
      exact hclosing conn dones ((Function.update_self ..).symm.trans hd)
    exact hconn.trans (hi.closing d conn dones ((Function.update_of_ne hdc ..).symm.trans hd))
  control := by
    have h := congrArg Lane.sc ((hother .control (Ne.symm hx)).2 fun _ ↦ none)
    exact (congrArg StreamController.active h).trans hi.control
  lane y hy := by
    obtain rfl | hyx := eq_or_ne y x
    · exact hself
    · obtain ⟨hclaim, hlane⟩ := hother y hyx
      rw [lane_same hclaim hlane]
      exact hi.lane y hy

/-- A section that only moves the call. -/
theorem SessionInv.move (hi : SessionInv k s) {r : Server × Phase} (hframe : s.server.Frame r.1)
    (hphase : r.2.On k) (hclosing : ∀ conn dones, r.2 ≠ .closing conn dones)
    (hsame : ∀ y, r.2.claim y = (s.call c).claim y ∧
      ∀ claim, r.1.lane k y claim = s.server.lane k y claim) : SessionInv k (s.put c r) := by
  have hx : StreamId.screen ≠ .control := nofun
  refine hi.put hx (hi.shared.frame hframe) hframe.conn hphase hclosing (fun y _ ↦ hsame y) ?_
  rw [lane_same (hsame .screen).1 (hsame .screen).2]
  exact hi.lane .screen hx

/-- The claim of a waiting call is stale, or the session is the one it started in. -/
theorem SessionInv.stale_of_not_connected (hi : SessionInv k s) {x : StreamId} (hx : x ≠ .control)
    (hd : s.server.connected = false) {q : Claim} (hq : (s.call c).claim x = some q) :
    q.gen ≠ (s.server.stream x).gen := by
  have hn : s.server.conn = none := by
    rw [← Option.not_isSome_iff_eq_none, ← hi.shared.connected, hd]
    decide
  exact Nat.ne_of_lt ((hi.lane x hx).stale hn c q hq)

/-- A call on `x` that returns with a stale claim or none. -/
theorem SessionInv.returns (hi : SessionInv k s) {x : StreamId} {t : Server} {outcome : Outcome}
    (hx : x ≠ .control) (hframe : s.server.Frame t)
    (hlane : ∀ y claim, t.lane k y claim = s.server.lane k y claim)
    (hother : ∀ y, y ≠ x → (s.call c).claim y = none)
    (hself : ∀ q, (s.call c).claim x = some q → q.gen ≠ (s.server.stream x).gen) :
    SessionInv k (s.put c (t, .returned outcome)) := by
  refine hi.put hx (hi.shared.frame hframe) hframe.conn trivial nofun
    (fun y hy ↦ ⟨(hother y hy).symm, hlane y⟩) ?_
  rw [lane_put, hlane]
  exact (hi.lane x hx).release hself

end Session

/-! ### The sections of a start -/

namespace Server

variable {s : Server} {k : ConnId} {x : StreamId}

/-- The start of a dial on an empty slot. -/
theorem startDial_spec (hconn : s.conn = some k) (hslot : (s.connection k).slot x = none) :
    ∃ t, s.startDial x = (t, .dialing x k ((s.stream x).gen + 1) s.nextCtx) ∧ s.Frame t ∧
      (∀ claim, t.lane k x claim = { s.lane k x claim with
        sc := { s.stream x with gen := (s.stream x).gen + 1, cancel := some s.nextCtx } }) ∧
      ∀ y, y ≠ x → ∀ claim, t.lane k y claim = s.lane k y claim := by
  have hneeds : (x = .screen ∨ s.hasStream k x = false) := by
    right
    rw [hasStream, hslot]
    rfl
  let u := (s.cancel (s.stream x).cancel).withCancel.setStream x
    { s.stream x with gen := (s.stream x).gen + 1, cancel := some s.nextCtx }
  have hframe : s.Frame u := (Frame.cancelCtx ..).trans ((Frame.withCancel _).trans
    (Frame.setStream _ (Nat.le_succ _) id))
  have hself (claim) : u.lane k x claim = { s.lane k x claim with
      sc := { s.stream x with gen := (s.stream x).gen + 1, cancel := some s.nextCtx } } :=
    lane_setStream_self ..
  have hother (y) (hy : y ≠ x) (claim) : u.lane k y claim = s.lane k y claim :=
    lane_setStream_of_ne _ _ _ _ _ hy _
  refine ⟨if x = .screen then u.closeStream k x else u, ?_, ?_, fun claim ↦ ?_, fun y hy claim ↦ ?_⟩
  · rw [startDial, hconn]
    exact congrArg (Prod.mk _) (if_pos hneeds)
  · split
    · exact hframe.trans (Frame.closeStream ..)
    · exact hframe
  · split
    · rw [lane_closeStream_self, hself, ← hslot]
      rfl
    · exact hself claim
  · split
    · rw [lane_closeStream_of_ne _ _ _ _ _ _ hy, hother y hy]
    · exact hother y hy claim

end Server

namespace Session

variable {k : ConnId} {s : State} {c : CallId} {x : StreamId}

/-- A dial starts on a stream that has no worker and an empty slot. -/
theorem SessionInv.startDial (hi : SessionInv k s) {t : Server} (hx : x ≠ .control)
    (hconn : t.conn = some k) (hslot : (t.connection k).slot x = none) (hframe : s.server.Frame t)
    (hother : ∀ y, y ≠ x → ((s.call c).claim y = none) ∧
      ∀ claim, t.lane k y claim = s.server.lane k y claim)
    (hl : LaneInv (t.lane k x (Function.update (s.claim x) c none)))
    (hactive : (t.stream x).active = false) (hrun : (t.stream x).running = false)
    (hdone : (t.stream x).done = none) : SessionInv k (s.put c (t.startDial x)) := by
  obtain ⟨u, hu, hframe', hself', hother'⟩ := Server.startDial_spec hconn hslot
  rw [hu]
  refine hi.put hx ((hi.shared.frame hframe).frame hframe') (hframe'.conn.trans hframe.conn)
    ⟨hx, rfl⟩ nofun
    (fun y hy ↦ ⟨?_, fun claim ↦ (hother' y hy claim).trans ((hother y hy).2 claim)⟩) ?_
  · rw [(hother y hy).1]
    exact if_neg (Ne.symm hy)
  · have hl := hl.supersede (c := c) (q := some ⟨.dial, (t.stream x).gen + 1, none⟩)
      (by rintro r ⟨⟩; exact ⟨rfl, hdone.symm, fun _ ↦ rfl⟩)
      (fun _ _ ↦ by rw [Server.lane, hconn]; rfl)
      (fun hr ↦ nomatch hrun.symm.trans hr) (some t.nextCtx) (t.stream x).hubGen
    rw [lane_put, hself']
    simpa only [Lane.supersede, Server.lane, Function.update_idem, Phase.claim, if_true, hslot,
      hactive] using hl

/-- An inactive stream of the session has an empty slot. -/
theorem SessionInv.slot_eq_none (hi : SessionInv k s) (hx : x ≠ .control)
    (hconn : s.server.conn = some k) (ha : (s.server.stream x).active = false) :
    (s.server.connection k).slot x = none := by
  by_contra hs
  have hk : (s.lane k x).conn.isSome := by
    rw [State.lane, Server.lane, hconn]
    rfl
  exact nomatch ha.symm.trans ((hi.lane x hx).slot hk (Option.isSome_iff_ne_none.2 hs))

theorem claim_idle (h : s.call c = .idle) (y : StreamId) : (s.call c).claim y = none := by
  rw [h]
  rfl

/-- The first section of `startStream` keeps the invariant. -/
theorem SessionInv.startEnter (hi : SessionInv k s) (hx : x ≠ .control) (hc : s.call c = .idle) :
    SessionInv k (s.put c (s.server.startEnter x)) := by
  have hidle := claim_idle hc
  have hreturn (outcome : Outcome) : SessionInv k (s.put c (s.server, .returned outcome)) :=
    hi.move (Server.Frame.refl _) trivial nofun fun y ↦ ⟨(hidle y).symm, fun _ ↦ rfl⟩
  rw [Server.startEnter]
  split
  · exact hreturn _
  rename_i hconnected
  have hconn := hi.shared.conn_eq (eq_true_of_ne_false hconnected)
  simp only
  split
  · exact hreturn _
  rename_i hidleStream
  -- a stream that does not run is not active
  have hactive : (s.server.stream x).active = false := by
    by_contra ha
    have ha := eq_true_of_ne_false ha
    exact hidleStream ⟨((hi.lane x hx).active ha).1, ha⟩
  split
  · have hset : s.server.Frame (s.server.setStream x { s.server.stream x with
        cancel := none, gen := (s.server.stream x).gen + 1 }) :=
      Server.Frame.setStream _ (Nat.le_succ _) id
    have hframe := (hset.trans (Server.Frame.cancelCtx _ (s.server.stream x).cancel)).trans
      (Server.Frame.closeConnStream _ x s.server.conn)
    refine hi.put hx (hi.shared.frame hframe) hframe.conn ⟨hx, hconn⟩ nofun
      (fun y hy ↦ ⟨?_, fun claim ↦ ?_⟩) ?_
    · rw [hidle y]
      exact if_neg (Ne.symm hy)
    · rw [Server.lane_closeConnStream_of_ne _ _ _ _ _ hy, Server.lane_cancel,
        Server.lane_setStream_of_ne _ _ _ _ _ hy]
    · have hl := (hi.lane x hx).supersede (c := c)
        (q := some ⟨.join, (s.server.stream x).gen + 1, (s.server.stream x).done⟩)
        (by rintro r ⟨⟩; exact ⟨rfl, rfl, nofun⟩)
        (fun _ _ ↦ by rw [State.lane, Server.lane, hconn]; rfl)
        (fun _ ↦ ⟨_, rfl, nofun⟩) none (s.server.stream x).hubGen
      rw [lane_put, Server.lane_closeConnStream_self _ _ _ _ hconn, Server.lane_cancel,
        Server.lane_setStream_self]
      simpa only [Lane.supersede, State.lane, Server.lane, Phase.claim, if_true, hactive] using hl
  · rename_i hstopped
    rw [not_or, Bool.not_eq_true, Bool.not_eq_true, Option.isSome_eq_false_iff,
      Option.isNone_iff_eq_none] at hstopped
    refine hi.startDial hx hconn (hi.slot_eq_none hx hconn hactive) (Server.Frame.refl _)
      (fun y _ ↦ ⟨hidle y, fun _ ↦ rfl⟩) ?_ hactive hstopped.1 hstopped.2
    have hclaim : Function.update (s.claim x) c none = s.claim x :=
      Function.update_eq_self_iff.2 (hidle x).symm
    rw [hclaim]
    exact hi.lane x hx

/-- The section of `startStream` after the wait keeps the invariant. -/
theorem SessionInv.startResume (hi : SessionInv k s) {conn : Option ConnId} {waitGen : ℕ}
    {done : Option WorkerId} (hc : s.call c = .joining x conn waitGen done)
    (hjoined : s.server.joined done = true) :
    SessionInv k (s.put c (s.server.startResume x conn waitGen)) := by
  obtain ⟨hclaim, hother⟩ : (s.call c).claim x = some ⟨.join, waitGen, done⟩ ∧
      ∀ y, y ≠ x → (s.call c).claim y = none :=
    Phase.claim_single fun y ↦ by rw [hc, Phase.claim]
  obtain ⟨hx, hon⟩ : x ≠ .control ∧ conn = some k := by
    have := hi.phase c
    rwa [hc] at this
  rw [Server.startResume]
  split
  · rename_i hstale
    refine hi.returns hx (Server.Frame.refl _) (fun _ _ ↦ rfl) hother fun q hq ↦ ?_
    by_cases hd : s.server.connected = false
    · exact hi.stale_of_not_connected hx hd hq
    · have hconn := hi.shared.conn_eq (eq_true_of_ne_false hd)
      rw [hclaim, Option.some.injEq] at hq
      obtain h | h | h := hstale
      · exact absurd h hd
      · exact absurd (hconn.trans hon.symm) h
      · rw [← hq]
        exact Ne.symm h
  · rename_i hcurrent
    rw [not_or, not_or, not_not, not_not] at hcurrent
    obtain ⟨hd, -, hgen⟩ := hcurrent
    have hconn := hi.shared.conn_eq (eq_true_of_ne_false hd)
    have hk : (s.lane k x).conn.isSome := by
      rw [State.lane, Server.lane, hconn]
      rfl
    obtain ⟨-, hactive, hslot⟩ := (hi.lane x hx).latest hk c _ hclaim hgen.symm
    have hl := (hi.lane x hx).settle hclaim hgen.symm (Server.liveOn_of_joined hjoined x)
    refine hi.startDial hx hconn hslot (Server.Frame.setStream _ (Nat.le_refl _) id)
      (fun y hy ↦ ⟨hother y hy, fun _ ↦ Server.lane_setStream_of_ne _ _ _ _ _ hy _⟩) ?_ ?_ ?_ ?_
    · rw [Server.lane_setStream_self]
      exact hl
    · rw [Server.setStream_stream, if_pos rfl]
      exact hactive
    · rw [Server.setStream_stream, if_pos rfl]
    · rw [Server.setStream_stream, if_pos rfl]

/-- A call that dialed gives the stream up if the generation is still its own. -/
theorem SessionInv.startAbort (hi : SessionInv k s) {gen : ℕ} {t : Server} {outcome : Outcome}
    (hx : x ≠ .control) (hclaim : (s.call c).claim x = some ⟨.dial, gen, none⟩)
    (hother : ∀ y, y ≠ x → (s.call c).claim y = none) (hframe : s.server.Frame t)
    (hlane : ∀ y claim, t.lane k y claim = s.server.lane k y claim) :
    SessionInv k (s.put c (t.startAbort x gen, .returned outcome)) := by
  have hstream : t.stream x = s.server.stream x := congrArg Lane.sc (hlane x fun _ ↦ none)
  rw [Server.startAbort]
  split
  · rename_i hgen
    refine hi.put hx
      (hi.shared.frame (hframe.trans (Server.Frame.setStream _ (Nat.le_refl _) nofun)))
      hframe.conn trivial
      nofun (fun y hy ↦ ⟨(hother y hy).symm, fun claim ↦ ?_⟩) ?_
    · rw [Server.lane_setStream_of_ne _ _ _ _ _ hy, hlane]
    · rw [lane_put, Server.lane_setStream_self, hlane, hstream]
      exact (hi.lane x hx).abort hclaim
        (hgen.symm.trans (congrArg StreamController.gen hstream)) rfl
  · rename_i hgen
    refine hi.returns hx hframe hlane hother fun q hq ↦ ?_
    rw [hclaim, Option.some.injEq] at hq
    rw [← hq, ← hstream]
    exact Ne.symm hgen

/-- The section of `startStream` after a failed dial keeps the invariant. -/
theorem SessionInv.startDialFailed (hi : SessionInv k s) {j : ConnId} {gen : ℕ}
    (hc : s.call c = .dialFailed x j gen) :
    SessionInv k (s.put c (s.server.startDialFailed x j gen, .returned (.startFailed none))) := by
  obtain ⟨hclaim, hother⟩ : (s.call c).claim x = some ⟨.dial, gen, none⟩ ∧
      ∀ y, y ≠ x → (s.call c).claim y = none :=
    Phase.claim_single fun y ↦ by rw [hc, Phase.claim]
  obtain ⟨hx, hon⟩ : x ≠ .control ∧ j = k := by
    have := hi.phase c
    rwa [hc] at this
  rw [Server.startDialFailed]
  split
  · exact hi.startAbort hx hclaim hother (Server.Frame.refl _) fun _ _ ↦ rfl
  · rename_i hconn
    refine hi.returns hx (Server.Frame.refl _) (fun _ _ ↦ rfl) hother fun q hq ↦ ?_
    have hd : s.server.connected = false := by
      by_contra hd
      exact hconn (hon ▸ hi.shared.conn_eq (eq_true_of_ne_false hd))
    exact hi.stale_of_not_connected hx hd hq

end Session

namespace Server

variable (s : Server) (k : ConnId) (x : StreamId)

/-- What `InstallStream` leaves alone. -/
structure Installs (s t : Server) : Prop where
  /-- `connected` and `conn` are kept. -/
  conn : t.connected = s.connected ∧ t.conn = s.conn
  /-- No connection is closed. -/
  closed : ∀ j, (t.connection j).closed = (s.connection j).closed
  /-- The workers are not touched. -/
  worker : t.worker = s.worker ∧ t.nextWorker = s.nextWorker
  /-- No socket is allocated. -/
  nextSocket : t.nextSocket = s.nextSocket
  /-- A closed socket stays closed. -/
  socketClosed : ∀ c, s.socketClosed c = true → t.socketClosed c = true

/-- A socket goes into a slot of an open connection. -/
theorem installStream_spec (hopen : (s.connection k).closed = false) (socket : SocketId) :
    ∃ t, s.installStream k x socket = (t, true) ∧ Installs s t ∧
      (t.connection k).slot x = some socket ∧
      (∀ claim, t.lane k x claim = { s.lane k x claim with slot := some socket }) ∧
      ∀ y, y ≠ x → ∀ claim, t.lane k y claim = s.lane k y claim := by
  have hself (claim) : (s.setSlot k x (some socket)).lane k x claim =
      { s.lane k x claim with slot := some socket } := by
    rw [lane, setSlot_slot, if_pos ⟨rfl, rfl⟩]
    rfl
  have hother (y) (hy : y ≠ x) (claim) :
      (s.setSlot k x (some socket)).lane k y claim = s.lane k y claim := by
    rw [lane, setSlot_slot, if_neg fun h ↦ hy h.2]
    rfl
  rw [installStream, hopen, if_neg Bool.false_ne_true]
  have hclosed (j) := s.setSlot_closed k j x (some socket)
  by_cases hold : (s.connection k).slot x = some socket
  · exact ⟨_, congrArg (Prod.mk · true) (if_pos hold),
      ⟨⟨rfl, rfl⟩, hclosed, ⟨rfl, rfl⟩, rfl, fun _ h ↦ h⟩,
      congrArg Lane.slot (hself fun _ ↦ none), hself, hother⟩
  · exact ⟨_, congrArg (Prod.mk · true) (if_neg hold),
      ⟨⟨rfl, rfl⟩, hclosed, ⟨rfl, rfl⟩, rfl, fun c h ↦ by simp [closeSocket, setSlot, h]⟩,
      congrArg Lane.slot (hself fun _ ↦ none), hself, hother⟩

/-- A new worker is alive on its own stream only. -/
theorem liveOn_addWorker (y : StreamId) (j : ConnId) (ctx : CtxId) (gen hubGen : ℕ) :
    (s.addWorker x j ctx gen hubGen).liveOn y =
      if y = x then Function.update (s.liveOn x) s.nextWorker
        (some ⟨x, j, ctx, gen, hubGen, (s.connection j).slot x, .running⟩)
      else s.liveOn y := by
  have hold {v : WorkerId} (hv : v ≠ s.nextWorker) :
      (s.addWorker x j ctx gen hubGen).liveOn y v = s.liveOn y v := by
    have hlt : v < s.nextWorker + 1 ↔ v < s.nextWorker :=
      ⟨fun hl ↦ Nat.lt_of_le_of_ne (Nat.le_of_lt_succ hl) hv, Nat.lt_succ_of_lt⟩
    simp only [liveOn, Live, addWorker, Function.update_of_ne hv, hlt]
    rfl
  funext v
  obtain rfl | hv := eq_or_ne v s.nextWorker
  · obtain rfl | hy := eq_or_ne y x
    · simp [liveOn, Live, addWorker]
    · rw [if_neg hy]
      simp [liveOn, Live, addWorker, Ne.symm hy]
  · rw [hold hv]
    split
    · rename_i hy
      rw [Function.update_of_ne hv, hy]
    · rfl

theorem lane_addWorker_of_ne {y : StreamId} (h : y ≠ x) (j : ConnId) (ctx : CtxId)
    (gen hubGen : ℕ) (claim : CallId → Option Claim) :
    (s.addWorker x j ctx gen hubGen).lane k y claim = s.lane k y claim := by
  rw [lane, liveOn_addWorker, if_neg h]
  rfl

theorem lane_addWorker_self (j : ConnId) (ctx : CtxId) (gen hubGen : ℕ)
    (claim : CallId → Option Claim) :
    (s.addWorker x j ctx gen hubGen).lane k x claim =
      { s.lane k x claim with
        live := Function.update (s.liveOn x) s.nextWorker
          (some ⟨x, j, ctx, gen, hubGen, (s.connection j).slot x, .running⟩) } := by
  rw [lane, liveOn_addWorker, if_pos rfl]
  rfl

theorem lane_beginScreenSession_of_ne (h : x ≠ .screen) (j : ConnId) (gen : ℕ) (ok : Bool)
    (claim : CallId → Option Claim) :
    (s.beginScreenSession j gen ok).lane k x claim = s.lane k x claim :=
  lane_setStream_of_ne { s with hub := (s.hub.beginScreenSession ok).1 } k x .screen claim h _

/-- The launch of a worker commits it to the lane of its stream. -/
theorem startLaunch_spec (gen : ℕ) (ctx : CtxId) (ok : Bool) :
    ∃ a hubGen, a.stream = x ∧ a.conn = k ∧ a.gen = gen ∧
      a.socket = (s.connection k).slot x ∧ a.phase = .running ∧
      (a.stream = .screen → a.hubGen = hubGen) ∧
      (∀ c claim, (s.startLaunch x k gen ctx ok).lane k x (Function.update claim c none) =
        (s.lane k x claim).commit c s.nextWorker a hubGen) ∧
      ∀ y, y ≠ x → ∀ claim, (s.startLaunch x k gen ctx ok).lane k y claim = s.lane k y claim := by
  obtain rfl | hx := eq_or_ne x .screen
  · let hub := (s.hub.beginScreenSession ok).1
    refine ⟨⟨.screen, k, ctx, gen, hub.screenGeneration, (s.connection k).slot .screen, .running⟩,
      hub.screenGeneration, rfl, rfl, rfl, rfl, rfl, fun _ ↦ rfl, fun c claim ↦ ?_,
      fun y hy claim ↦ ?_⟩
    · rw [startLaunch, launchWorker, lane_addWorker_self]
      rfl
    · rw [startLaunch, launchWorker, lane_addWorker_of_ne _ _ _ hy,
        lane_beginScreenSession_of_ne _ _ _ hy, lane_setStream_of_ne _ _ _ _ _ hy]
  · refine ⟨⟨x, k, ctx, gen, 0, (s.connection k).slot x, .running⟩, (s.stream x).hubGen, rfl, rfl,
      rfl, rfl, rfl, fun h ↦ absurd h hx, fun c claim ↦ ?_, fun y hy claim ↦ ?_⟩
    · rw [startLaunch, launchWorker_of_ne _ hx, lane_addWorker_self, lane_setStream_self]
      rfl
    · rw [startLaunch, launchWorker_of_ne _ hx, lane_addWorker_of_ne _ _ _ hy,
        lane_setStream_of_ne _ _ _ _ _ hy]

end Server

namespace Session

variable {k : ConnId} {s : State} {c : CallId} {x : StreamId}

theorem Shared.installs {t u : Server} (h : Shared k t) (hi : t.Installs u) : Shared k u where
  connected := by rw [hi.conn.1, hi.conn.2, h.connected]
  conn j hj := h.conn j (hi.conn.2 ▸ hj)
  opened hk := (hi.closed k).trans (h.opened (hi.conn.2 ▸ hk))
  worker w hw := by
    rw [hi.worker.1]
    exact h.worker w ((Server.live_congr w hi.worker.1 hi.worker.2).1 hw)

/-- The new worker belongs to the connection of the session. -/
theorem Shared.startLaunch {t : Server} (h : Shared k t) (hx : x ≠ .control) (gen : ℕ)
    (ctx : CtxId) (ok : Bool) :
    Shared k (t.startLaunch x k gen ctx ok) ∧ (t.startLaunch x k gen ctx ok).conn = t.conn := by
  have hadd (u : Server) (hu : Shared k u) (hubGen : ℕ) :
      Shared k (u.addWorker x k ctx gen hubGen) := by
    refine ⟨hu.connected, hu.conn, hu.opened, fun w hw ↦ ?_⟩
    obtain ⟨-, heq⟩ | ⟨hl, heq⟩ := Server.live_addWorker hw
    · rw [heq]
      exact ⟨rfl, hx⟩
    · rw [heq]
      exact hu.worker w hl
  have hset (sc : StreamController) : Shared k (t.setStream x sc) :=
    ⟨h.connected, h.conn, h.opened, h.worker⟩
  rw [Server.startLaunch]
  obtain rfl | hscreen := eq_or_ne x .screen
  · have hbegin (u : Server) (hu : Shared k u) : Shared k (u.beginScreenSession k gen ok) :=
      ⟨hu.connected, hu.conn, hu.opened, hu.worker⟩
    exact ⟨hadd _ (hbegin _ (hset _)) _, rfl⟩
  · rw [Server.launchWorker_of_ne _ hscreen]
    exact ⟨hadd _ (hset _) _, rfl⟩

/-- The commit section of `startStream` keeps the invariant. -/
theorem SessionInv.startCommit (hi : SessionInv k s) {j : ConnId} {gen : ℕ} {ctx : CtxId}
    {socket : Option SocketId} {ok : Bool}
    (hc : s.call c = .dialed x j gen ctx socket) :
    SessionInv k (s.put c (s.server.startCommit x j gen ctx socket ok)) := by
  obtain ⟨hclaim, hother⟩ : (s.call c).claim x = some ⟨.dial, gen, none⟩ ∧
      ∀ y, y ≠ x → (s.call c).claim y = none :=
    Phase.claim_single fun y ↦ by rw [hc, Phase.claim]
  obtain ⟨hx, rfl, hsome⟩ : x ≠ .control ∧ j = k ∧ socket.isSome := by
    have := hi.phase c
    rwa [hc] at this
  obtain ⟨socket, rfl⟩ := Option.isSome_iff_exists.1 hsome
  rw [Server.startCommit]
  split
  · rename_i hmay
    rw [Server.mayStart, decide_eq_true_eq] at hmay
    obtain ⟨-, hconn, hgen, -⟩ := hmay
    obtain ⟨t, ht, hinstalls, hslot, hself, hlane⟩ :=
      s.server.installStream_spec j x (hi.shared.opened hconn) socket
    simp only [ht]
    have hshared := hi.shared.installs hinstalls
    obtain ⟨hlaunch, hlaunchConn⟩ := hshared.startLaunch hx gen ctx ok
    obtain ⟨a, hubGen, -, haconn, hagen, hasock, haphase, hahub, hcommit, hsame⟩ :=
      t.startLaunch_spec j x gen ctx ok
    refine hi.put hx hlaunch (hlaunchConn.trans hinstalls.conn.2) trivial nofun
      (fun y hy ↦ ⟨(hother y hy).symm, fun claim ↦ (hsame y hy claim).trans (hlane y hy claim)⟩) ?_
    have hl := (hi.lane x hx).commit (w := t.nextWorker) hclaim hgen.symm rfl
      (hconn.trans (congrArg some haconn.symm)) (hagen.trans hgen.symm) hahub haphase
      (by rw [hasock, hslot]; rfl)
    have heq : (t.startLaunch x j gen ctx ok).lane j x (Function.update (s.claim x) c none) =
        (s.lane j x).commit c t.nextWorker a hubGen := by
      rw [hcommit, hself]
      rfl
    rw [lane_put]
    exact heq ▸ hl
  · exact hi.startAbort hx hclaim hother ((Server.Frame.cancelCtx ..).trans
      (Server.Frame.closeSocket ..)) fun _ _ ↦ rfl

/-- `stopStream` ends the hub's session of the screen. -/
theorem lane_endIfScreen (t : Server) (x : StreamId) (k : ConnId) (ok : Bool) :
    (∃ hubGen, ∀ claim, (if x = .screen then t.endScreenSession ok else t).lane k x claim =
        { t.lane k x claim with sc := { t.stream x with hubGen } }) ∧
      ∀ y, y ≠ x → ∀ claim,
        (if x = .screen then t.endScreenSession ok else t).lane k y claim = t.lane k y claim := by
  split
  · rename_i hx
    subst hx
    exact ⟨⟨0, fun claim ↦ t.lane_endScreenSession_self k claim ok⟩,
      fun y hy claim ↦ t.lane_endScreenSession_of_ne k y claim hy ok⟩
  · exact ⟨⟨(t.stream x).hubGen, fun _ ↦ rfl⟩, fun _ _ _ ↦ rfl⟩

/-- The first section of `stopStream` supersedes every claim. -/
theorem SessionInv.stopEnter_spec (hi : SessionInv k s) (ok : Bool) (hx : x ≠ .control)
    (hconnected : s.server.connected = true) :
    (∃ q cancel hubGen, (s.put c (s.server.stopEnter x ok)).lane k x =
        (s.lane k x).supersede c q cancel hubGen ∧
      (((s.server.stream x).running = false ∧ (s.server.stream x).done = none ∧ q = none ∧
          ∃ ctx, (s.server.stopEnter x ok).2 = .stopCancelling x ctx) ∨
        (q = some ⟨.stop, (s.server.stream x).gen + 1, (s.server.stream x).done⟩ ∧
          (s.server.stopEnter x ok).2 =
            .stopping x ((s.server.stream x).gen + 1) (s.server.stream x).done))) ∧
      ∀ y, y ≠ x → ∀ claim,
        (s.server.stopEnter x ok).1.lane k y claim = s.server.lane k y claim := by
  have hconn := hi.shared.conn_eq hconnected
  rw [Server.stopEnter, if_neg (by rw [hconnected]; decide)]
  simp only
  split
  · rename_i hstopped
    have hactive : (s.server.stream x).active = false := by
      by_contra ha
      exact nomatch hstopped.1.symm.trans ((hi.lane x hx).active (eq_true_of_ne_false ha)).1
    refine ⟨⟨none, none, (s.server.stream x).hubGen, ?_,
      .inl ⟨hstopped.1, hstopped.2, rfl, _, rfl⟩⟩,
      fun y hy claim ↦ Server.lane_setStream_of_ne _ _ _ _ _ hy _⟩
    rw [lane_put, Server.lane_setStream_self]
    simp only [Lane.supersede, State.lane, Server.lane, Phase.claim,
      hi.slot_eq_none hx hconn hactive]
  · let u := s.server.setStream x { s.server.stream x with
      cancel := none, gen := (s.server.stream x).gen + 1, active := false }
    have hu : u.stream x = { s.server.stream x with
        cancel := none, gen := (s.server.stream x).gen + 1, active := false } := by
      rw [Server.setStream_stream, if_pos rfl]
    obtain ⟨⟨hubGen, hself⟩, hother⟩ := lane_endIfScreen u x k ok
    refine ⟨⟨some ⟨.stop, (s.server.stream x).gen + 1, (s.server.stream x).done⟩, none, hubGen, ?_,
      .inr ⟨rfl, rfl⟩⟩, fun y hy claim ↦ ?_⟩
    · rw [lane_put, Server.lane_closeConnStream_self _ _ _ _ hconn, Server.lane_cancel, hself, hu,
        Server.lane_setStream_self]
      simp only [Lane.supersede, State.lane, Server.lane, Phase.claim, if_true]
    · rw [Server.lane_closeConnStream_of_ne _ _ _ _ _ hy, Server.lane_cancel, hother y hy,
        Server.lane_setStream_of_ne _ _ _ _ _ hy]

/-- The first section of `stopStream` keeps the invariant. -/
theorem SessionInv.stopEnter (hi : SessionInv k s) (ok : Bool) (hx : x ≠ .control)
    (hc : s.call c = .idle) : SessionInv k (s.put c (s.server.stopEnter x ok)) := by
  have hidle := claim_idle hc
  by_cases hd : s.server.connected = true
  · have hframe := Server.Frame.stopEnter s.server x ok
    obtain ⟨⟨q, cancel, hubGen, hself, hq⟩, hother⟩ := hi.stopEnter_spec (c := c) ok hx hd
    have hk : (s.lane k x).conn.isSome := by
      rw [State.lane, Server.lane, hi.shared.conn_eq hd]
      rfl
    refine hi.put hx (hi.shared.frame hframe) hframe.conn ?_ (fun conn dones h ↦ ?_)
      (fun y hy ↦ ⟨?_, hother y hy⟩) ?_
    · obtain ⟨-, -, -, ctx, hp⟩ | ⟨-, hp⟩ := hq <;> rw [hp]
      · trivial
      · exact hx
    · obtain ⟨-, -, -, ctx, hp⟩ | ⟨-, hp⟩ := hq <;> rw [hp] at h <;> cases h
    · rw [hidle y]
      obtain ⟨-, -, -, ctx, hp⟩ | ⟨-, hp⟩ := hq <;> rw [hp]
      · rfl
      · exact if_neg (Ne.symm hy)
    · rw [hself]
      obtain ⟨hrun, -, rfl, -⟩ | ⟨rfl, -⟩ := hq
      · exact (hi.lane x hx).supersede (q := none) nofun nofun
          (fun h ↦ nomatch hrun.symm.trans h) _ _
      · exact (hi.lane x hx).supersede
          (q := some ⟨.stop, (s.server.stream x).gen + 1, (s.server.stream x).done⟩)
          (by rintro r ⟨⟩; exact ⟨rfl, rfl, nofun⟩) (fun _ _ ↦ hk) (fun _ ↦ ⟨_, rfl, nofun⟩) _ _
  · rw [Server.stopEnter, if_pos (eq_false_of_ne_true hd)]
    exact hi.move (Server.Frame.refl _) trivial nofun fun y ↦ ⟨(hidle y).symm, fun _ ↦ rfl⟩

/-- The last section of `stopStream` keeps the invariant. -/
theorem SessionInv.stopFinish (hi : SessionInv k s) {gen : ℕ} {done : Option WorkerId}
    (hc : s.call c = .stopping x gen done)
    (hjoined : s.server.joined done = true) :
    SessionInv k (s.put c (s.server.stopFinish x gen, .returned .stopped)) := by
  obtain ⟨hclaim, hother⟩ : (s.call c).claim x = some ⟨.stop, gen, done⟩ ∧
      ∀ y, y ≠ x → (s.call c).claim y = none :=
    Phase.claim_single fun y ↦ by rw [hc, Phase.claim]
  have hx : x ≠ .control := by
    have := hi.phase c
    rwa [hc] at this
  rw [Server.stopFinish]
  split
  · rename_i hgen
    have hk : (s.lane k x).conn.isSome := by
      by_contra hn
      exact absurd hgen.symm (Nat.ne_of_lt
        ((hi.lane x hx).stale (Option.not_isSome_iff_eq_none.1 hn) c _ hclaim))
    have hactive : (s.server.stream x).active = false :=
      ((hi.lane x hx).latest hk c _ hclaim hgen.symm).2.1
    have hl := (hi.lane x hx).settle hclaim hgen.symm (Server.liveOn_of_joined hjoined x)
    refine hi.put hx (hi.shared.frame (Server.Frame.setStream _ (Nat.le_refl _) nofun)) rfl
      trivial nofun (fun y hy ↦
        ⟨(hother y hy).symm, fun claim ↦ Server.lane_setStream_of_ne _ _ _ _ _ hy _⟩)
      ?_
    rw [lane_put, Server.lane_setStream_self]
    simpa only [Lane.settle, State.lane, Server.lane, Phase.claim, hactive] using hl
  · rename_i hgen
    refine hi.returns hx (Server.Frame.refl _) (fun _ _ ↦ rfl) hother fun q hq ↦ ?_
    rw [hclaim, Option.some.injEq] at hq
    rw [← hq]
    exact Ne.symm hgen

/-- A section of `Disconnect` that ends the pending `Connect`. -/
theorem lane_abortConnect (t : Server) (y : StreamId) (claim : CallId → Option Claim) :
    t.abortConnect.lane k y claim = t.lane k y claim := by
  rw [Server.abortConnect]
  split <;> rfl

/-- The locked section of `Disconnect` keeps the invariant. -/
theorem SessionInv.disconnectEnter (hi : SessionInv k s) (hc : s.call c = .idle) (ok : Bool) :
    SessionInv k (s.put c (s.server.disconnectEnter ok)) := by
  have hidle := claim_idle hc
  have habort := Server.Frame.abortConnect s.server
  rw [Server.disconnectEnter, Server.disconnectLocked]
  by_cases hconnected : s.server.connected = true
  · simp only [habort.connected, hconnected, if_true]
    have hframe := habort.trans (Server.Frame.endScreenSession s.server.abortConnect ok)
    have hshared := hi.shared.frame hframe
    generalize hu : s.server.abortConnect.endScreenSession ok = u at hframe hshared
    have hlane (y : StreamId) (claim : CallId → Option Claim) :
        ∃ hubGen, u.detach.lane k y claim = (s.server.lane k y claim).detach hubGen := by
      have hu' : u.detach.lane k y claim = (u.lane k y claim).detach (u.stream y).hubGen := rfl
      rw [hu']
      obtain rfl | hy := eq_or_ne y .screen
      · refine ⟨(u.stream .screen).hubGen, ?_⟩
        rw [← hu, Server.lane_endScreenSession_self, lane_abortConnect]
        rw [show s.server.abortConnect.stream .screen = s.server.stream .screen from
          congrArg Lane.sc (lane_abortConnect (k := k) s.server .screen fun _ ↦ none)]
        rfl
      · refine ⟨(u.stream y).hubGen, ?_⟩
        rw [← hu, Server.lane_endScreenSession_of_ne _ _ _ _ hy, lane_abortConnect]
    refine ⟨⟨rfl, fun _ h ↦ (by cases h), fun h ↦ (by cases h), hshared.worker⟩, fun d ↦ ?_,
      fun _ _ _ _ ↦ rfl, rfl, fun y hy ↦ ?_⟩
    · simp only [State.put, Function.update_apply]
      split
      · exact hframe.conn.trans (hi.shared.conn_eq hconnected)
      · exact hi.phase d
    · obtain ⟨hubGen, heq⟩ := hlane y (s.claim y)
      have hclaim : Function.update (s.claim y) c none = s.claim y :=
        Function.update_eq_self_iff.2 (hidle y).symm
      rw [lane_put]
      refine (congrArg LaneInv (Eq.trans ?_ heq)).mpr ((hi.lane y hy).detach hubGen)
      exact congrArg _ hclaim
  · simp only [habort.connected, hconnected]
    exact hi.move habort trivial (fun _ _ h ↦ by cases h) fun y ↦
      ⟨(hidle y).symm, lane_abortConnect s.server y⟩

/-- `conn.Close()` keeps the invariant. -/
theorem SessionInv.close (hi : SessionInv k s) {conn : Option ConnId} {dones : List WorkerId}
    (hc : s.call c = .closing conn dones) :
    SessionInv k (s.put c (s.server.closeConn conn, .waiting dones)) := by
  have hnone := hi.closing c conn dones hc
  have hon : conn = some k := by
    have := hi.phase c
    rwa [hc] at this
  have hclaim (y : StreamId) : Phase.claim y (.waiting dones) = (s.call c).claim y := by
    rw [hc]
    rfl
  rw [hon, Server.closeConn, Option.elim_some, Server.closeConnection]
  split
  · exact hi.move (Server.Frame.refl _) trivial (fun _ _ h ↦ by cases h)
      fun y ↦ ⟨hclaim y, fun _ ↦ rfl⟩
  · refine ⟨⟨hi.shared.connected, hi.shared.conn, fun h ↦ (by cases hnone.symm.trans h),
      hi.shared.worker⟩, fun d ↦ ?_, fun _ _ _ _ ↦ hnone, hi.control, fun y hy ↦ ?_⟩
    · simp only [State.put, Function.update_apply]
      split
      · trivial
      · exact hi.phase d
    · have hl := (hi.lane y hy).empty hnone
      have hupd : Function.update (s.claim y) c (Phase.claim y (.waiting dones)) = s.claim y :=
        Function.update_eq_self_iff.2 (hclaim y)
      rw [lane_put, hupd, Server.lane]
      simp only [Function.update_self]
      exact hl

/-- A worker that takes a step. -/
theorem SessionInv.of_server (hi : SessionInv k s) {t : Server} (hframe : s.server.Frame t)
    (hlane : ∀ y, y ≠ .control → LaneInv (t.lane k y (s.claim y))) :
    SessionInv k { s with server := t } where
  shared := hi.shared.frame hframe
  phase := hi.phase
  closing c conn dones hc := hframe.conn.trans (hi.closing c conn dones hc)
  control := by
    by_contra h
    exact nomatch hi.control.symm.trans (hframe.active .control (eq_true_of_ne_false h))
  lane := hlane

/-- A worker goes to its next phase, after a section on its own stream. -/
theorem SessionInv.setPhase (hi : SessionInv k s) {w : WorkerId} {t : Server} {phase : WorkerPhase}
    (hlive : s.server.Live w) (hframe : s.server.Frame t) (hworker : t.worker = s.server.worker)
    (hnext : t.nextWorker = s.server.nextWorker)
    (hother : ∀ y, y ≠ .control → y ≠ (s.server.worker w).stream → ∀ claim,
      t.lane k y claim = s.server.lane k y claim)
    (hself : ∀ y, y ≠ .control → (s.server.worker w).stream = y →
      LaneInv ((t.lane k y (s.claim y)).progress w
        (if phase = .exited then none else some { s.server.worker w with phase })
        (t.lane k y (s.claim y)).slot)) :
    SessionInv k { s with server := t.setPhase w phase } := by
  have ht : t.Live w := (Server.live_congr w hworker hnext).2 hlive
  refine hi.of_server (hframe.trans (Server.Frame.setPhase ht _)) fun y hy ↦ ?_
  by_cases hyw : (s.server.worker w).stream = y
  · rw [Server.lane_setPhase_self _ _ _ _ (by rw [hworker, hyw]) ht.1, hworker]
    exact hself y hy hyw
  · rw [Server.lane_setPhase_of_ne _ _ _ _ (by rw [hworker]; exact hyw),
      hother y hy (Ne.symm hyw)]
    exact hi.lane y hy

/-- The phases of a worker that leave its lane as it is. -/
theorem SessionInv.progress (hi : SessionInv k s) {w : WorkerId} {y : StreamId}
    {phase : WorkerPhase} (hlive : s.server.Live w) (hy : y ≠ .control)
    (hyw : (s.server.worker w).stream = y)
    (hbefore : (s.server.worker w).phase.beforeCleanup = true → phase.beforeCleanup = true)
    (hsocket : phase.hasSocket = true → (s.server.worker w).phase.hasSocket = true)
    (hclean : phase ≠ .cleanup ∨ y ≠ .screen)
    (hexit : phase.screenOnly = true → y = .screen) :
    LaneInv ((s.lane k y).progress w
      (if phase = .exited then none else some { s.server.worker w with phase })
      (s.lane k y).slot) := by
  have hw : (s.lane k y).live w = some (s.server.worker w) :=
    Server.liveOn_eq_some_iff.2 ⟨hlive, rfl, hyw⟩
  refine (hi.lane y hy).progress hw (fun a' ha' ↦ ?_) (.inl rfl) (fun a' ha' hs ↦ ?_)
    (fun ha ↦ ?_) (fun a' ha' hx hp ↦ ?_) fun a' ha' hp ↦ ?_
  · split at ha'
    · cases ha'
    · exact ⟨phase, (Option.some.inj ha').symm⟩
  · split at ha'
    · cases ha'
    · obtain rfl := Option.some.inj ha'
      exact hsocket hs
  · have hb := hbefore ((hi.lane y hy).current hw ha).2.2.2.2
    have hne : phase ≠ .exited := by
      rintro rfl
      cases hb
    exact ⟨_, if_neg hne, hb, fun _ ↦ rfl⟩
  · split at ha'
    · cases ha'
    · obtain rfl := Option.some.inj ha'
      exact (hclean.elim (absurd hp) (absurd (hyw.symm.trans hx)))
  · split at ha'
    · cases ha'
    · obtain rfl := Option.some.inj ha'
      exact hyw.trans (hexit hp)

/-- The cleanup of a worker keeps the invariant. -/
theorem SessionInv.workerCleanup (hi : SessionInv k s) {w : WorkerId} (hlive : s.server.Live w)
    (hp : (s.server.worker w).phase = .cleanup) :
    SessionInv k { s with
      server := (s.server.workerCleanup (s.server.worker w)).setPhase w .cancelling } := by
  generalize hv : s.server.worker w = v at hp
  obtain ⟨hworker, hnext⟩ := s.server.workerCleanup_worker v
  have hphase {y : StreamId} (hyw : (s.server.worker w).stream = y) :
      (s.lane k y).live w = some v :=
    Server.liveOn_eq_some_iff.2 ⟨hlive, hv.symm, by rw [← hv, hyw]⟩
  refine hi.setPhase hlive (Server.Frame.workerCleanup ..) hworker hnext
    (fun y hy hyw claim ↦ ?_) fun y hy hyw ↦ ?_
  · rw [hv] at hyw
    rw [Server.workerCleanup]
    split
    · split
      · rename_i hx
        exact Server.lane_setStream_of_ne _ _ _ _ _ (hx ▸ hyw) _
      · rw [Server.lane_setStream_of_ne _ _ _ _ _ hyw,
          Server.lane_closeStream_of_ne _ _ _ _ _ _ hyw]
    · rfl
  · have hw := hphase hyw
    have hconn : v.conn = k := hv ▸ (hi.shared.worker w hlive).1
    rw [hv] at hyw ⊢
    have hcancelling {l : Lane} (hl : LaneInv l) (hlw : l.live w = some v)
        (ha : l.sc.active = false) :
        LaneInv (l.progress w (some { v with phase := .cancelling }) l.slot) :=
      hl.progress hlw (fun _ ha' ↦ ⟨_, (Option.some.inj ha').symm⟩) (.inl rfl)
        (by rintro _ ⟨⟩ h; cases h) (fun h ↦ by cases ha.symm.trans h)
        (by rintro _ ⟨⟩ - h; cases h) (by rintro _ ⟨⟩ h; cases h)
    by_cases hcur : (s.server.stream v.stream).running ∧ (s.server.stream v.stream).gen = v.gen ∧
        s.server.conn = some v.conn ∧
        (v.stream = .screen → (s.server.stream v.stream).hubGen = v.hubGen)
    · -- the current worker stops its stream; a screen worker has emptied the slot before
      obtain ⟨hubGen, hstop⟩ : ∃ hubGen, (s.server.workerCleanup v).lane k y (s.claim y) =
          (s.lane k y).stop hubGen := by
        rw [Server.workerCleanup, if_pos hcur]
        split
        · rename_i hx
          have hslot := (hi.lane y hy).cleanup w v hw hx hp
          rw [← hyw, hx, Server.lane_setStream_self]
          refine ⟨0, ?_⟩
          rw [← hyw, hx] at hslot
          simp only [Lane.stop, State.lane, Server.lane] at hslot ⊢
          rw [hslot]
        · rw [← hyw, hconn, Server.lane_setStream_self, Server.lane_closeStream_self]
          exact ⟨(s.server.stream v.stream).hubGen, rfl⟩
      rw [hstop]
      exact hcancelling ((hi.lane y hy).stop hw hp hubGen) hw rfl
    · have hact : (s.lane k y).sc.active = false := by
        by_contra ha
        obtain ⟨hrun, hgen, hc, hhub, -⟩ := (hi.lane y hy).current hw (eq_true_of_ne_false ha)
        subst hyw
        exact hcur ⟨hrun, hgen, hc, hhub⟩
      rw [Server.workerCleanup, if_neg hcur]
      exact hcancelling (hi.lane y hy) hw hact

/-- Every step of a worker keeps the invariant. -/
theorem SessionInv.workerStep (hi : SessionInv k s) {w : WorkerId} {ok : Bool} {t : Server}
    (h : s.server.workerStep w ok = some t) : SessionInv k { s with server := t } := by
  rw [Server.workerStep] at h
  split at h
  · cases h
  rename_i hlt
  have live (hp : (s.server.worker w).phase ≠ .exited) : s.server.Live w :=
    ⟨Nat.lt_of_not_le hlt, hp⟩
  have screen (hl : s.server.Live w) (hp : (s.server.worker w).phase.screenOnly = true) :
      (s.server.worker w).stream = .screen :=
    (hi.lane _ (hi.shared.worker w hl).2).exit w _ (Server.liveOn_eq_some_iff.2 ⟨hl, rfl, rfl⟩) hp
  have same : ∀ y, y ≠ .control → y ≠ (s.server.worker w).stream →
      ∀ claim, s.server.lane k y claim = s.server.lane k y claim := fun _ _ _ _ ↦ rfl
  split at h <;> rename_i hp <;> cases h
  · have hl := live (by rw [hp]; decide)
    refine hi.setPhase hl (Server.Frame.refl _) rfl rfl same fun y hy hyw ↦ ?_
    by_cases hx : (s.server.worker w).stream = .screen
    · rw [if_pos hx]
      exact hi.progress hl hy hyw (fun _ ↦ rfl) (fun _ ↦ by rw [hp]; rfl) (.inl (by rintro ⟨⟩))
        fun _ ↦ hyw.symm.trans hx
    · rw [if_neg hx]
      exact hi.progress hl hy hyw (fun _ ↦ rfl) (by rintro ⟨⟩) (.inr fun h ↦ hx (hyw.trans h))
        (by rintro ⟨⟩)
  · have hl := live (by rw [hp]; decide)
    refine hi.setPhase (t := { s.server with
      hub := (s.server.hub.endScreenSession (s.server.worker w).hubGen ok).1 }) hl
      (Server.Frame.of_eq rfl rfl rfl rfl rfl rfl rfl rfl rfl rfl rfl) rfl rfl same
      fun y hy hyw ↦ ?_
    exact hi.progress hl hy hyw (fun _ ↦ rfl) (fun _ ↦ by rw [hp]; rfl) (.inl (by rintro ⟨⟩))
      fun _ ↦ hyw.symm.trans (screen hl (by rw [hp]; rfl))
  · have hl := live (by rw [hp]; decide)
    obtain ⟨hworker, hnext⟩ := s.server.closeScreenControl_worker (s.server.worker w).conn
      (s.server.worker w).gen (s.server.worker w).hubGen
    refine hi.setPhase hl (Server.Frame.closeScreenControl ..) hworker hnext
      (fun y hy _ claim ↦ Server.lane_closeScreenControl_of_ne _ _ _ _ _ hy _ _) fun y hy hyw ↦ ?_
    rw [Server.lane_closeScreenControl_of_ne _ _ _ _ _ hy]
    exact hi.progress hl hy hyw (fun _ ↦ rfl) (fun _ ↦ by rw [hp]; rfl) (.inl (by rintro ⟨⟩))
      fun _ ↦ hyw.symm.trans (screen hl (by rw [hp]; rfl))
  · have hl := live (by rw [hp]; decide)
    have hx := screen hl (by rw [hp]; rfl)
    rw [(hi.shared.worker w hl).1]
    refine hi.setPhase hl (Server.Frame.closeStream ..) rfl rfl
      (fun y _ hyw claim ↦ Server.lane_closeStream_of_ne _ _ _ _ _ _ (hx ▸ hyw)) fun y hy hyw ↦ ?_
    obtain rfl : y = .screen := hyw.symm.trans hx
    rw [Server.lane_closeStream_self]
    -- the worker empties the slot and goes to its cleanup
    have hw : (s.lane k .screen).live w = some (s.server.worker w) :=
      Server.liveOn_eq_some_iff.2 ⟨hl, rfl, hyw⟩
    exact (hi.lane .screen hy).progress hw
      (fun _ ha' ↦ ⟨_, (Option.some.inj ha').symm⟩) (.inr (rfl : (none : Option SocketId) = none))
      (by rintro _ ⟨⟩ h; cases h) (fun _ ↦ ⟨_, rfl, rfl, by rintro ⟨⟩⟩)
      (fun _ _ _ _ ↦ rfl) (by rintro _ ⟨⟩ h; cases h)
  · have hl := live (by rw [hp]; decide)
    exact hi.workerCleanup hl hp
  · have hl := live (by rw [hp]; decide)
    refine hi.setPhase hl (Server.Frame.cancelCtx ..) rfl rfl same fun y hy hyw ↦ ?_
    exact hi.progress hl hy hyw (fun hb ↦ by rw [hp] at hb; cases hb) (by rintro ⟨⟩)
      (.inl (by rintro ⟨⟩)) (by rintro ⟨⟩)
  · have hl := live (by rw [hp]; decide)
    refine hi.setPhase hl (Server.Frame.refl _) rfl rfl same fun y hy hyw ↦ ?_
    exact hi.progress hl hy hyw (fun hb ↦ by rw [hp] at hb; cases hb) (by rintro ⟨⟩)
      (.inl (by rintro ⟨⟩)) (by rintro ⟨⟩)

/-! ### Every step keeps the invariant -/

/-- The next section of a call keeps the invariant. -/
theorem SessionInv.advance (hi : SessionInv k s) {ok : Bool} {r : Server × Phase}
    (h : Session.advance s.server ok (s.call c) = some r) : SessionInv k (s.put c r) := by
  rcases hc : s.call c with
    _ | ⟨x, conn, waitGen, done⟩ | ⟨x, j, gen, ctx⟩ | ⟨x, j, gen⟩ | ⟨x, j, gen, ctx, socket⟩ |
    ⟨x, ctx⟩ | ⟨x, gen, done⟩ | ⟨conn, dones⟩ | dones | outcome
  all_goals rw [hc] at h
  case idle => cases h
  case joining =>
    rw [Session.advance] at h
    split at h <;> cases h
    exact hi.startResume hc ‹_›
  case dialing =>
    have hon := hi.phase c
    rw [hc] at hon
    rw [Session.advance] at h
    split at h <;> cases h
    · exact hi.move (Server.Frame.dialSocket _) ⟨hon.1, hon.2, rfl⟩ nofun
        fun y ↦ ⟨by rw [hc]; rfl, fun _ ↦ rfl⟩
    · exact hi.move (Server.Frame.cancelCtx ..) hon nofun fun y ↦ ⟨by rw [hc]; rfl, fun _ ↦ rfl⟩
  case dialFailed =>
    cases h
    exact hi.startDialFailed hc
  case dialed =>
    cases h
    exact hi.startCommit hc
  case stopCancelling =>
    cases h
    exact hi.move (Server.Frame.cancelCtx ..) trivial nofun
      fun y ↦ ⟨by rw [hc]; rfl, fun _ ↦ rfl⟩
  case stopping =>
    rw [Session.advance] at h
    split at h <;> cases h
    exact hi.stopFinish hc ‹_›
  case closing =>
    cases h
    exact hi.close hc
  case waiting =>
    rw [Session.advance] at h
    split at h <;> cases h
    exact hi.move (Server.Frame.refl _) trivial nofun fun y ↦ ⟨by rw [hc]; rfl, fun _ ↦ rfl⟩
  case returned => cases h

/-- **One step** of a session keeps the invariant. -/
theorem SessionInv.step (hi : SessionInv k s) {e : Event} {t : State}
    (h : Session.step s e = some t) : SessionInv k t := by
  rcases e with ⟨c, x⟩ | ⟨c, x, ok⟩ | ⟨c, ok⟩ | ⟨c, ok⟩ | ⟨w, ok⟩
  all_goals rw [Session.step] at h
  case start =>
    split at h
    · cases h
    rename_i hc
    have hc := not_not.1 hc
    split at h <;> cases h
    · exact hi.move (Server.Frame.refl _) trivial nofun
        fun y ↦ ⟨(claim_idle hc y).symm, fun _ ↦ rfl⟩
    · exact hi.startEnter ‹_› hc
  case stop =>
    split at h
    · cases h
    rename_i hc
    have hc := not_not.1 hc
    split at h <;> cases h
    · exact hi.move (Server.Frame.refl _) trivial nofun
        fun y ↦ ⟨(claim_idle hc y).symm, fun _ ↦ rfl⟩
    · exact hi.stopEnter ok ‹_› hc
  case disconnect =>
    split at h <;> cases h
    exact hi.disconnectEnter (not_not.1 ‹_›) ok
  case advance =>
    obtain ⟨r, hr, rfl⟩ := Option.map_eq_some_iff.1 h
    exact hi.advance hr
  case worker =>
    obtain ⟨t, ht, rfl⟩ := Option.map_eq_some_iff.1 h
    exact hi.workerStep ht

end Session

end AllRelay
