import AllRelay.Controller.ScreenControl

/-!
# What the session does to the control socket

Most sections of a session are `Server.Aside`: they leave alone the control slot, the owner of the
control socket, the hub and every control socket. `ControlStep` lists the steps that do more: a
screen worker is launched, a session of the hub is ended, `Disconnect` resets the controller and
later closes the connection, and an exiting screen worker closes the control socket.

Control sockets are told from the sockets of the other streams by a predicate `D`, "dialed as a
control socket". The other slots hold none of them (`Server.Clean`).
-/

namespace AllRelay

/-- A screen worker whose session of the hub is still to be ended. -/
def WorkerPhase.beforeEnd : WorkerPhase → Bool
  | .running | .endingSession => true
  | _ => false

/-- A screen worker that has still to close its control socket. -/
def WorkerPhase.beforeClose : WorkerPhase → Bool
  | .running | .endingSession | .closingControl => true
  | _ => false

namespace Server

/-- The owner of the control socket: its connection and its generations. -/
def controlOwner (s : Server) : Option (ConnId × ℕ × ℕ) :=
  s.controlConnection.map fun k ↦ (k, s.controlScreenGeneration, s.controlHubGeneration)

theorem ownsControl_iff {s : Server} {k : ConnId} {gen hubGen : ℕ} :
    s.ownsControl k gen hubGen = true ↔ s.controlOwner = some (k, gen, hubGen) := by
  rw [ownsControl, decide_eq_true_eq, controlOwner, Option.map_eq_some_iff]
  constructor
  · rintro ⟨hk, hg, hh⟩
    exact ⟨k, hk, by rw [hg, hh]⟩
  · rintro ⟨j, hj, heq⟩
    obtain ⟨rfl, hg, hh⟩ : j = k ∧ s.controlScreenGeneration = gen ∧
        s.controlHubGeneration = hubGen := by
      simpa only [Prod.mk.injEq] using heq
    exact ⟨hj, hg, hh⟩

variable (k : ConnId) (D : SocketId → Prop)

/-- The control sockets are allocated, and the other slots hold none of them. -/
def Clean (s : Server) : Prop :=
  (∀ c, D c → c < s.nextSocket) ∧
    ∀ x, x ≠ .control → ∀ c, (s.connection k).slot x = some c → ¬D c ∧ c < s.nextSocket

/-- A section that does nothing to the control slot and to control sockets. -/
structure Apart (s t : Server) : Prop where
  /-- The control slot is kept. -/
  slot : (t.connection k).slot .control = (s.connection k).slot .control
  /-- The connection is neither closed nor opened. -/
  closed : (t.connection k).closed = (s.connection k).closed
  /-- Workers may be allocated. -/
  nextWorker : s.nextWorker ≤ t.nextWorker
  /-- A worker keeps its arguments. -/
  worker : ∀ w < s.nextWorker, ∃ phase, t.worker w = { s.worker w with phase }
  /-- No control socket is closed. -/
  socketClosed : Clean k D s → ∀ c, D c → t.socketClosed c = s.socketClosed c
  /-- The other slots stay clean. -/
  clean : Clean k D s → Clean k D t

/-- A section that launches no screen worker and keeps the owner of the control socket. -/
structure Calm (s t : Server) : Prop extends Apart k D s t where
  /-- `conn` is kept. -/
  conn : t.conn = s.conn
  /-- The owner is kept. -/
  owner : t.controlOwner = s.controlOwner
  /-- The owner closes its control socket by its own step. -/
  close : ∀ w < s.nextWorker, (s.worker w).stream = .screen →
    s.controlOwner = some (k, (s.worker w).gen, (s.worker w).hubGen) →
      (s.worker w).phase.beforeClose = true → (t.worker w).phase.beforeClose = true
  /-- A new worker is no screen worker. -/
  launch : ∀ w, s.nextWorker ≤ w → w < t.nextWorker → (t.worker w).stream ≠ .screen

/-- A section that has nothing to do with the control socket or with the hub. -/
structure Aside (s t : Server) : Prop extends Calm k D s t where
  /-- The hub is kept. -/
  hub : t.hub = s.hub
  /-- The screen's `hubGen` is kept as long as the hub has a session. -/
  hubGen : s.hub.screenActive = true → (t.stream .screen).hubGen = (s.stream .screen).hubGen
  /-- A worker ends its session of the hub by its own step. -/
  ending : ∀ w < s.nextWorker, (s.worker w).stream = .screen →
    (s.worker w).phase.beforeEnd = true → (t.worker w).phase.beforeEnd = true

variable {k D} {s t u : Server}

theorem Apart.refl (s : Server) : Apart k D s s :=
  ⟨rfl, rfl, Nat.le_refl _, fun _ _ ↦ ⟨_, rfl⟩, fun _ _ _ ↦ rfl, id⟩

theorem Apart.trans (h : Apart k D s t) (h' : Apart k D t u) : Apart k D s u where
  slot := h'.slot.trans h.slot
  closed := h'.closed.trans h.closed
  nextWorker := Nat.le_trans h.nextWorker h'.nextWorker
  worker w hw := by
    obtain ⟨phase, ht⟩ := h.worker w hw
    obtain ⟨phase', hu⟩ := h'.worker w (Nat.lt_of_lt_of_le hw h.nextWorker)
    exact ⟨phase', by rw [hu, ht]⟩
  socketClosed hc c hD := (h'.socketClosed (h.clean hc) c hD).trans (h.socketClosed hc c hD)
  clean hc := h'.clean (h.clean hc)

theorem Calm.trans (h : Calm k D s t) (h' : Calm k D t u) : Calm k D s u where
  toApart := h.toApart.trans h'.toApart
  conn := h'.conn.trans h.conn
  owner := h'.owner.trans h.owner
  close w hw hx ho hp := by
    obtain ⟨phase, ht⟩ := h.worker w hw
    refine h'.close w (Nat.lt_of_lt_of_le hw h.nextWorker) (by rw [ht, hx]) ?_
      (h.close w hw hx ho hp)
    rw [h.owner, ht]
    exact ho
  launch w hw hu := by
    obtain hlt | hge := Nat.lt_or_ge w t.nextWorker
    · obtain ⟨phase, heq⟩ := h'.worker w hlt
      rw [heq]
      exact h.launch w hw hlt
    · exact h'.launch w hge hu

namespace Aside

theorem refl (s : Server) : Aside k D s s :=
  ⟨⟨Apart.refl s, rfl, rfl, fun _ _ _ _ h ↦ h, fun _ hw hw' ↦ absurd hw' (Nat.not_lt.2 hw)⟩, rfl,
    fun _ ↦ rfl, fun _ _ _ h ↦ h⟩

theorem trans (h : Aside k D s t) (h' : Aside k D t u) : Aside k D s u where
  toCalm := h.toCalm.trans h'.toCalm
  hub := h'.hub.trans h.hub
  hubGen ha := (h'.hubGen (h.hub ▸ ha)).trans (h.hubGen ha)
  ending w hw hx hp := by
    obtain ⟨phase, ht⟩ := h.worker w hw
    exact h'.ending w (Nat.lt_of_lt_of_le hw h.nextWorker) (by rw [ht, hx]) (h.ending w hw hx hp)

/-! ### The operations -/

theorem cancelCtx (s : Server) (ctx : Option CtxId) : Aside k D s (s.cancel ctx) :=
  { refl (k := k) (D := D) s with }

theorem withCancel (s : Server) : Aside k D s s.withCancel :=
  { refl (k := k) (D := D) s with }

theorem closeSocket (s : Server) {socket : Option SocketId} (h : ∀ c, socket = some c → ¬D c) :
    Aside k D s (s.closeSocket socket) :=
  { refl (k := k) (D := D) s with
    socketClosed := fun _ c hD ↦ by
      rw [closeSocket_socketClosed, decide_eq_false fun hc ↦ h c hc hD, Bool.or_false]
    clean := fun hc ↦ ⟨hc.1, hc.2⟩ }

theorem dialSocket (s : Server) : Aside k D s s.dialSocket :=
  { refl (k := k) (D := D) s with
    socketClosed := fun hc c hD ↦ Function.update_of_ne (Nat.ne_of_lt (hc.1 c hD)) ..
    clean := fun hc ↦ ⟨fun c hD ↦ Nat.lt_succ_of_lt (hc.1 c hD),
      fun x hx c hs ↦ ((hc.2 x hx c hs).imp_right Nat.lt_succ_of_lt)⟩ }

/-- Another slot is filled with a socket that is no control socket, or emptied. -/
theorem setSlot (s : Server) {x : StreamId} (hx : x ≠ .control) {socket : Option SocketId}
    (h : ∀ c, socket = some c → ¬D c ∧ c < s.nextSocket) : Aside k D s (s.setSlot k x socket) :=
  { refl (k := k) (D := D) s with
    slot := by
      rw [setSlot_slot]
      exact if_neg fun h ↦ hx h.2.symm
    closed := s.setSlot_closed ..
    socketClosed := fun _ _ _ ↦ rfl
    clean := fun hc ↦ ⟨hc.1, fun y hy c hs ↦ by
      rw [setSlot_slot] at hs
      split at hs
      · exact h c hs
      · exact hc.2 y hy c hs⟩ }

theorem closeStream (s : Server) {x : StreamId} (hx : x ≠ .control) :
    Aside k D s (s.closeStream k x) :=
  { refl (k := k) (D := D) s with
    slot := by
      rw [closeStream_slot]
      exact if_neg fun h ↦ hx h.2.symm
    closed := s.closeStream_closed ..
    socketClosed := fun hc c hD ↦ by
      rw [Server.closeStream, closeSocket_socketClosed,
        decide_eq_false fun h ↦ (hc.2 x hx c h).1 hD, Bool.or_false]
      rfl
    clean := fun hc ↦ ⟨hc.1, fun y hy c hs ↦ by
      rw [closeStream_slot] at hs
      split at hs
      · cases hs
      · exact hc.2 y hy c hs⟩ }

theorem setStream (s : Server) {x : StreamId} {c : StreamController}
    (h : x = .screen → s.hub.screenActive = true → c.hubGen = (s.stream .screen).hubGen) :
    Aside k D s (s.setStream x c) :=
  { refl (k := k) (D := D) s with
    hubGen := fun ha ↦ by
      rw [setStream_stream]
      split
      · rename_i hx
        exact h hx.symm ha
      · rfl }

/-- A step of a worker that neither ends a session of the hub nor closes a control socket. -/
theorem setPhase (s : Server) (w : WorkerId) {phase : WorkerPhase}
    (hclose : (s.worker w).stream = .screen →
      s.controlOwner = some (k, (s.worker w).gen, (s.worker w).hubGen) →
      (s.worker w).phase.beforeClose = true → phase.beforeClose = true)
    (hend : (s.worker w).stream = .screen → (s.worker w).phase.beforeEnd = true →
      phase.beforeEnd = true) :
    Aside k D s (s.setPhase w phase) :=
  { refl (k := k) (D := D) s with
    worker := fun v _ ↦ by
      rw [setPhase_worker]
      split
      · rename_i hv
        exact ⟨phase, by rw [hv]⟩
      · exact ⟨_, rfl⟩
    close := fun v _ hx ho hp ↦ by
      rw [setPhase_worker]
      split
      · rename_i hv
        rw [hv] at hx ho hp
        exact hclose hx ho hp
      · exact hp
    launch := fun _ hv hlt ↦ absurd hlt (Nat.not_lt.2 hv)
    ending := fun v _ hx hp ↦ by
      rw [setPhase_worker]
      split
      · rename_i hv
        exact hend (hv ▸ hx) (hv ▸ hp)
      · exact hp }

/-- A worker that has closed its control socket goes on. -/
theorem setPhase_of_closed (s : Server) {w : WorkerId} (h : (s.worker w).phase.beforeClose = false)
    (phase : WorkerPhase) : Aside k D s (s.setPhase w phase) := by
  refine setPhase s w (fun _ _ hb ↦ by cases h.symm.trans hb) fun _ hb ↦ ?_
  generalize (s.worker w).phase = p at h hb
  cases p <;> cases h <;> cases hb

theorem addWorker (s : Server) {x : StreamId} (hx : x ≠ .screen) (j : ConnId) (ctx : CtxId)
    (gen hubGen : ℕ) : Aside k D s (s.addWorker x j ctx gen hubGen) := by
  have hold {w : WorkerId} (hw : w < s.nextWorker) :
      (s.addWorker x j ctx gen hubGen).worker w = s.worker w :=
    Function.update_of_ne (Nat.ne_of_lt hw) ..
  exact { refl (k := k) (D := D) s with
    nextWorker := Nat.le_succ _
    worker := fun w hw ↦ ⟨_, hold hw⟩
    close := fun w hw _ _ hp ↦ by rwa [hold hw]
    launch := fun w hw hlt ↦ by
      obtain rfl : w = s.nextWorker := Nat.le_antisymm (Nat.le_of_lt_succ hlt) hw
      simp only [Server.addWorker, Function.update_self]
      exact hx
    ending := fun w hw _ hp ↦ by rwa [hold hw] }

theorem abortConnect (s : Server) : Aside k D s s.abortConnect := by
  rw [Server.abortConnect]
  split
  · exact { refl (k := k) (D := D) s with }
  · exact refl s

theorem installStream (s : Server) {x : StreamId} (hx : x ≠ .control) {c : SocketId}
    (hc : ¬D c ∧ c < s.nextSocket) : Aside k D s (s.installStream k x c).1 := by
  have hsocket : ∀ c', some c = some c' → ¬D c' ∧ c' < s.nextSocket := by
    rintro _ ⟨⟩
    exact hc
  rw [Server.installStream]
  split
  · exact closeSocket s fun c' h ↦ (hsocket c' h).1
  have hset := setSlot (k := k) s hx hsocket
  simp only
  split
  · exact hset
  · exact { hset with
      socketClosed := fun hclean c' hD ↦ by
        rw [closeSocket_socketClosed,
          decide_eq_false fun h ↦ (hclean.2 x hx c' h).1 hD, Bool.or_false]
        rfl
      clean := fun hclean ↦ ⟨(hset.clean hclean).1, (hset.clean hclean).2⟩ }

/-! ### The sections -/

theorem closeConnStream (s : Server) {x : StreamId} (hx : x ≠ .control) {conn : Option ConnId}
    (hconn : ∀ j, conn = some j → j = k) : Aside k D s (s.closeConnStream conn x) := by
  rcases conn with _ | j
  · exact refl s
  · obtain rfl := hconn j rfl
    exact closeStream s hx

theorem startDial (s : Server) {x : StreamId} (hx : x ≠ .control)
    (hconn : ∀ j, s.conn = some j → j = k) : Aside k D s (s.startDial x).1 := by
  rw [Server.startDial]
  split
  · exact refl s
  · rename_i j hj
    obtain rfl := hconn j hj
    have h : Aside j D s ((s.cancel (s.stream x).cancel).withCancel.setStream x
        { s.stream x with gen := (s.stream x).gen + 1, cancel := some s.nextCtx }) :=
      (cancelCtx ..).trans ((withCancel _).trans (setStream _ fun hx _ ↦ by rw [hx]; rfl))
    simp only
    split
    · exact h.trans (closeStream _ hx)
    · exact h

theorem startEnter (s : Server) {x : StreamId} (hx : x ≠ .control)
    (hconn : ∀ j, s.conn = some j → j = k) : Aside k D s (s.startEnter x).1 := by
  rw [Server.startEnter]
  split
  · exact refl s
  simp only
  split
  · exact refl s
  split
  · have h : Aside k D s (s.setStream x
        { s.stream x with cancel := none, gen := (s.stream x).gen + 1 }) :=
      setStream _ fun hx _ ↦ by rw [hx]
    exact h.trans ((cancelCtx ..).trans (closeConnStream _ hx hconn))
  · exact startDial s hx hconn

theorem startResume (s : Server) {x : StreamId} (hx : x ≠ .control)
    (hconn : ∀ j, s.conn = some j → j = k) (conn : Option ConnId) (waitGen : ℕ) :
    Aside k D s (s.startResume x conn waitGen).1 := by
  rw [Server.startResume]
  split
  · exact refl s
  · have h : Aside k D s (s.setStream x { s.stream x with done := none, running := false }) :=
      setStream _ fun hx _ ↦ by rw [hx]
    exact h.trans (startDial _ hx hconn)

theorem startAbort (s : Server) (x : StreamId) (gen : ℕ) : Aside k D s (s.startAbort x gen) := by
  rw [Server.startAbort]
  split
  · exact setStream _ fun hx _ ↦ by rw [hx]
  · exact refl s

theorem startDialFailed (s : Server) (x : StreamId) (j : ConnId) (gen : ℕ) :
    Aside k D s (s.startDialFailed x j gen) := by
  rw [Server.startDialFailed]
  split
  · exact startAbort ..
  · exact refl s

theorem stopFinish (s : Server) (x : StreamId) (gen : ℕ) : Aside k D s (s.stopFinish x gen) := by
  rw [Server.stopFinish]
  split
  · exact setStream _ fun hx _ ↦ by rw [hx]
  · exact refl s

/-- The launch of a worker of another stream. -/
theorem startLaunch (s : Server) {x : StreamId} (hx : x ≠ .screen) (gen : ℕ) (ctx : CtxId)
    (ok : Bool) : Aside k D s (s.startLaunch x k gen ctx ok) := by
  rw [Server.startLaunch, launchWorker_of_ne _ hx]
  exact (setStream s fun h ↦ absurd h hx).trans (addWorker _ hx ..)

end Aside

/-! ### The sections that do more -/

/-- The hub's session, if it has one, is ended. -/
def EndsSession (h h' : Hub) : Prop :=
  ∃ gen ok, h' = (h.endScreenSession gen ok).1 ∧
    (h.screenActive = true → gen = h.screenGeneration)

/-- What the controller knows of a session of the hub. -/
structure HubOwned (s : Server) : Prop where
  /-- The session is the one of `hubGen`. -/
  hubGen : s.hub.screenActive = true →
    (s.stream .screen).hubGen = s.hub.screenGeneration ∧ s.hub.screenGeneration ≠ 0
  /-- A live screen worker has still to end it. -/
  worker : s.hub.screenActive = true → ∀ w, s.Live w → (s.worker w).stream = .screen →
    (s.worker w).phase.beforeEnd = true ∧ (s.worker w).hubGen = s.hub.screenGeneration

theorem Calm.endScreenSession (s : Server) (ok : Bool) : Calm k D s (s.endScreenSession ok) := by
  rw [Server.endScreenSession]
  split
  · exact { (Aside.refl (k := k) (D := D) s).toCalm with }
  · exact (Aside.refl s).toCalm

theorem endsSession_endScreenSession (h : s.HubOwned) (ok : Bool) :
    EndsSession s.hub (s.endScreenSession ok).hub := by
  rw [Server.endScreenSession]
  split
  · exact ⟨_, ok, rfl, fun ha ↦ (h.hubGen ha).1⟩
  · rename_i hzero
    rw [not_not] at hzero
    have ha : s.hub.screenActive = false := by
      by_contra ha
      obtain ⟨heq, hne⟩ := h.hubGen (eq_true_of_ne_false ha)
      exact hne (heq.symm.trans hzero)
    refine ⟨0, ok, ?_, fun h ↦ by cases ha.symm.trans h⟩
    rw [Hub.endScreenSession, Hub.accepts, ha]
    rfl

/-- The first section of OFF ends the session of the hub, if the stream is the screen and runs. -/
theorem stopEnter_control (h : s.HubOwned) (hconn : ∀ j, s.conn = some j → j = k) {x : StreamId}
    (hx : x ≠ .control) (ok : Bool) : Aside k D s (s.stopEnter x ok).1 ∨
      (Calm k D s (s.stopEnter x ok).1 ∧ EndsSession s.hub (s.stopEnter x ok).1.hub) := by
  rw [Server.stopEnter]
  split
  · exact .inl (Aside.refl s)
  have hstream : Aside k D s (s.setStream x
      { s.stream x with cancel := none, gen := (s.stream x).gen + 1, active := false }) :=
    Aside.setStream _ fun hx _ ↦ by rw [hx]
  have hafter (t : Server) (ht : t.conn = s.conn) :
      Aside k D t ((t.cancel (s.stream x).cancel).closeConnStream s.conn x) :=
    (Aside.cancelCtx ..).trans (Aside.closeConnStream _ hx hconn)
  simp only
  split
  · exact .inl hstream
  split
  · rename_i hscreen
    subst hscreen
    right
    generalize hu : s.setStream .screen { s.stream .screen with
      cancel := none, gen := (s.stream .screen).gen + 1, active := false } = u at hstream ⊢
    have hend : (u.stream .screen).hubGen = (s.stream .screen).hubGen := by
      rw [← hu, setStream_stream, if_pos rfl]
    have hworker : u.worker = s.worker ∧ u.nextWorker = s.nextWorker := by
      rw [← hu]
      exact ⟨rfl, rfl⟩
    have howned : u.HubOwned := by
      refine ⟨fun ha ↦ ?_, fun ha w hl hx ↦ ?_⟩
      · rw [hend, hstream.hub]
        exact h.hubGen (hstream.hub ▸ ha)
      · rw [hworker.1, hstream.hub]
        rw [hworker.1] at hx
        exact h.worker (hstream.hub ▸ ha) w ((live_congr w hworker.1 hworker.2).1 hl) hx
    have hcalm := hafter (u.endScreenSession ok)
      ((Calm.endScreenSession (k := k) (D := D) u ok).conn.trans hstream.conn)
    refine ⟨(hstream.toCalm.trans (Calm.endScreenSession u ok)).trans hcalm.toCalm, ?_⟩
    rw [hcalm.hub, ← hstream.hub]
    exact endsSession_endScreenSession howned ok
  · exact .inl (hstream.trans (hafter _ hstream.conn))

/-- A screen worker is launched. -/
structure Launches (k : ConnId) (D : SocketId → Prop) (s t : Server) : Prop
    extends Apart k D s t where
  /-- The connection is the current one. -/
  conn : t.conn = some k
  /-- The new worker. -/
  new : t.nextWorker = s.nextWorker + 1 ∧ (t.worker s.nextWorker).stream = .screen ∧
    (t.worker s.nextWorker).conn = k ∧ (t.worker s.nextWorker).phase = .running ∧
    (t.worker s.nextWorker).hubGen = t.hub.screenGeneration
  /-- It owns the control socket. -/
  owner : t.controlOwner = some (k, (t.worker s.nextWorker).gen, t.hub.screenGeneration)
  /-- A session of the hub begins. -/
  hub : ∃ ok, t.hub = (s.hub.beginScreenSession ok).1
  /-- It is the one of `hubGen`. -/
  hubGen : (t.stream .screen).hubGen = t.hub.screenGeneration

theorem Launches.launchWorker (s : Server) (hconn : s.conn = some k) (ctx : CtxId) (gen : ℕ)
    (ok : Bool) : Launches k D s (s.launchWorker .screen k ctx gen ok) := by
  have hnew : (s.launchWorker .screen k ctx gen ok).worker s.nextWorker =
      ⟨.screen, k, ctx, gen, (s.hub.beginScreenSession ok).1.screenGeneration,
        (s.connection k).slot .screen, .running⟩ :=
    Function.update_self ..
  exact { Apart.refl (k := k) (D := D) s with
    nextWorker := Nat.le_succ _
    worker := fun w hw ↦ ⟨_, Function.update_of_ne (Nat.ne_of_lt hw) ..⟩
    conn := hconn
    new := by
      rw [hnew]
      exact ⟨rfl, rfl, rfl, rfl, rfl⟩
    owner := by
      rw [hnew]
      rfl
    hub := ⟨ok, rfl⟩
    hubGen := rfl }

theorem Launches.comp (h : Aside k D s u) (hn : u.nextWorker = s.nextWorker)
    (h' : Launches k D u t) : Launches k D s t where
  toApart := h.toApart.trans h'.toApart
  conn := h'.conn
  new := hn ▸ h'.new
  owner := hn ▸ h'.owner
  hub := h.hub ▸ h'.hub
  hubGen := h'.hubGen

/-- An exiting screen worker that owns the control socket closes it. -/
structure ClosesControl (k : ConnId) (s t : Server) (w : WorkerId) : Prop where
  /-- The worker. -/
  worker : s.Live w ∧ (s.worker w).stream = .screen ∧ (s.worker w).phase = .closingControl
  /-- It owns the control socket. -/
  owns : s.controlOwner = some (k, (s.worker w).gen, (s.worker w).hubGen)
  /-- The step. -/
  step : t = (s.clearControl.closeControlConn k ((s.connection k).slot .control)).setPhase w
    .closingStream

/-- The next step of a worker. -/
theorem workerStep_control (h : s.HubOwned) {w : WorkerId} {ok : Bool}
    (hworker : ∀ w, s.Live w → (s.worker w).conn = k ∧ (s.worker w).stream ≠ .control)
    (hexit : ∀ w, s.Live w → (s.worker w).phase.screenOnly = true → (s.worker w).stream = .screen)
    (hs : s.workerStep w ok = some t) : Aside k D s t ∨
      (Calm k D s t ∧ EndsSession s.hub t.hub) ∨ ClosesControl k s t w := by
  rw [Server.workerStep] at hs
  split at hs
  · cases hs
  rename_i hw
  have live (hp : (s.worker w).phase ≠ .exited) : s.Live w := ⟨Nat.lt_of_not_le hw, hp⟩
  split at hs <;> rename_i hp <;> cases hs
  · refine .inl (Aside.setPhase s w (fun hx _ _ ↦ ?_) fun hx _ ↦ ?_)
    · rw [if_pos hx]
      rfl
    · rw [if_pos hx]
      rfl
  · -- the worker ends its session of the hub
    have hl := live (by rw [hp]; decide)
    have hx := hexit w hl (by rw [hp]; rfl)
    right; left
    refine ⟨?_, (s.worker w).hubGen, ok, rfl, fun ha ↦ (h.worker ha w hl hx).2⟩
    have hhub : Calm k D s { s with hub := (s.hub.endScreenSession (s.worker w).hubGen ok).1 } :=
      { (Aside.refl (k := k) (D := D) s).toCalm with }
    refine hhub.trans (u := _) ?_
    -- only the phase is left, and it is still before the close
    refine { (Aside.refl (k := k) (D := D) _).toCalm with
      worker := fun v _ ↦ ?_
      close := fun v _ _ _ hv ↦ ?_
      launch := fun _ hv hlt ↦ absurd hlt (Nat.not_lt.2 hv) }
    · rw [setPhase_worker]
      split
      · rename_i hv
        exact ⟨.closingControl, by rw [hv]⟩
      · exact ⟨_, rfl⟩
    · rw [setPhase_worker]
      split
      · rfl
      · exact hv
  · have hl := live (by rw [hp]; decide)
    rw [(hworker w hl).1]
    by_cases ho : s.ownsControl k (s.worker w).gen (s.worker w).hubGen = true
    · refine .inr (.inr ⟨⟨hl, hexit w hl (by rw [hp]; rfl), hp⟩, ownsControl_iff.1 ho, ?_⟩)
      rw [Server.closeScreenControl, if_pos ho]
    · rw [Server.closeScreenControl, if_neg ho]
      refine .inl (Aside.setPhase s w (fun _ howner _ ↦ ?_) fun _ hb ↦ ?_)
      · exact absurd (ownsControl_iff.2 howner) ho
      · rw [hp] at hb
        cases hb
  · have hl := live (by rw [hp]; decide)
    rw [(hworker w hl).1]
    exact .inl ((Aside.closeStream (x := .screen) s (by rintro ⟨⟩)).trans
      (Aside.setPhase_of_closed (s.closeStream k .screen)
        (show (s.worker w).phase.beforeClose = false by rw [hp]; rfl) _))
  · have hl := live (by rw [hp]; decide)
    have hwk := s.workerCleanup_worker (s.worker w)
    have hcleanup : Aside k D s (s.workerCleanup (s.worker w)) := by
      rw [Server.workerCleanup]
      split
      · split
        · rename_i hx
          refine Aside.setStream _ fun _ ha ↦ ?_
          -- the worker has ended the session before
          have hb := (h.worker ha w hl hx).1
          rw [hp] at hb
          cases hb
        · rename_i hx
          rw [(hworker w hl).1]
          exact (Aside.closeStream s (hworker w hl).2).trans
            (Aside.setStream _ fun h ↦ absurd h hx)
      · exact Aside.refl s
    exact .inl (hcleanup.trans (Aside.setPhase_of_closed _ (by rw [hwk.1, hp]; rfl) _))
  · exact .inl ((Aside.cancelCtx s _).trans
      (Aside.setPhase_of_closed (s.cancel (some (s.worker w).ctx))
        (show (s.worker w).phase.beforeClose = false by rw [hp]; rfl) _))
  · exact .inl (Aside.setPhase_of_closed s (by rw [hp]; rfl) _)

end Server

namespace ScreenControl

open Session (SessionInv CallId)

/-! ### The steps of a session -/

/-- A `Disconnect` is before its `conn.Close()`. -/
def Leaving (s : Session.State) : Prop :=
  ∃ c conn dones, s.call c = .closing conn dones

/-- What a step of a session does to the control socket. -/
inductive ControlStep (k : ConnId) (D : SocketId → Prop) (s t : Session.State) : Prop
  /-- Nothing. -/
  | aside (h : s.server.Aside k D t.server) (hl : Leaving s → Leaving t)
  /-- OFF or the exit of a screen worker ends the session of the hub. -/
  | ends (h : s.server.Calm k D t.server) (hub : Server.EndsSession s.server.hub t.server.hub)
      (hl : Leaving s → Leaving t)
  /-- `Disconnect` resets the controller. -/
  | leaves (h : s.server.Apart k D t.server) (hub : Server.EndsSession s.server.hub t.server.hub)
      (hconn : t.server.conn = none) (howner : t.server.controlOwner = none)
      (hnext : t.server.nextWorker = s.server.nextWorker) (hl : Leaving t)
  /-- `Disconnect` closes the connection. -/
  | closes (hl : Leaving s) (h : t.server = s.server.closeConnection k)
  /-- ON launches a screen worker. -/
  | launches (h : s.server.Launches k D t.server) (hl : Leaving s → Leaving t)
      (hidle : ∀ w, s.server.Live w → (s.server.worker w).stream ≠ .screen)
  /-- An exiting screen worker closes the control socket. -/
  | control (w : WorkerId) (h : s.server.ClosesControl k t.server w) (hl : Leaving s → Leaving t)

theorem Leaving.put {s : Session.State} {c : CallId} (r : Server × Session.Phase)
    (hc : ∀ conn dones, s.call c ≠ .closing conn dones) (h : Leaving s) : Leaving (s.put c r) := by
  obtain ⟨d, conn, dones, hd⟩ := h
  have hdc : d ≠ c := by
    rintro rfl
    exact hc conn dones hd
  exact ⟨d, conn, dones, (Function.update_of_ne hdc ..).trans hd⟩

variable {k : ConnId} {D : SocketId → Prop} {s t : Session.State}

/-- The stream of a start that passes its check has no worker. -/
theorem no_worker (hi : SessionInv k s) {c : CallId} {x : StreamId} {j : ConnId} {gen : ℕ}
    {ctx : CtxId} {socket : Option SocketId} (hc : s.call c = .dialed x j gen ctx socket)
    (hmay : s.server.mayStart x j gen ctx = true) (w : WorkerId) (hl : s.server.Live w) :
    (s.server.worker w).stream ≠ x := by
  rintro rfl
  obtain ⟨hx, rfl, -⟩ : (s.server.worker w).stream ≠ .control ∧ j = k ∧ socket.isSome := by
    have := hi.phase c
    rwa [hc] at this
  rw [Server.mayStart, decide_eq_true_eq] at hmay
  have hsome : (s.lane j (s.server.worker w).stream).conn.isSome := by
    rw [Session.State.lane, Server.lane, hmay.2.1]
    rfl
  have hclaim : (s.lane j (s.server.worker w).stream).claim c = some ⟨.dial, gen, none⟩ := by
    show (s.call c).claim _ = _
    rw [hc]
    exact if_pos rfl
  have hlatest := (hi.lane _ hx).latest hsome c _ hclaim hmay.2.2.1.symm
  have hlive := Server.liveOn_eq_some_iff.2 ⟨hl, rfl, rfl⟩
  cases hlatest.1.symm.trans ((hi.lane _ hx).done hsome w _ hlive)

/-- The commit section of a start. -/
theorem startCommit_control (hi : SessionInv k s) {c : CallId} {x : StreamId} {j : ConnId}
    {gen : ℕ} {ctx : CtxId} {socket : Option SocketId} {ok : Bool}
    (hcall : ∀ i, (s.call c).socket = some i → ¬D i ∧ i < s.server.nextSocket)
    (hc : s.call c = .dialed x j gen ctx socket) :
    ControlStep k D s (s.put c (s.server.startCommit x j gen ctx socket ok)) := by
  obtain ⟨hx, rfl, hsome⟩ : x ≠ .control ∧ j = k ∧ socket.isSome := by
    have := hi.phase c
    rwa [hc] at this
  have hl := Leaving.put (c := c) (s := s) (s.server.startCommit x j gen ctx socket ok)
    fun conn dones h ↦ by cases hc.symm.trans h
  have hsocket : ∀ i, socket = some i → ¬D i ∧ i < s.server.nextSocket := by
    rintro i rfl
    exact hcall i (by rw [hc]; rfl)
  by_cases hmay : s.server.mayStart x j gen ctx = true
  · obtain ⟨i, rfl⟩ := Option.isSome_iff_exists.1 hsome
    have hconn : s.server.conn = some j := by
      rw [Server.mayStart, decide_eq_true_eq] at hmay
      exact hmay.2.1
    obtain ⟨t, ht, hinstalls, -⟩ := s.server.installStream_spec j x (hi.shared.opened hconn) i
    have haside : s.server.Aside j D t := by
      have h := Server.Aside.installStream (k := j) s.server hx (hsocket i rfl)
      rwa [ht] at h
    have hcommit : s.server.startCommit x j gen ctx (some i) ok =
        (t.startLaunch x j gen ctx ok, .returned (.started (some i))) := by
      rw [Server.startCommit, if_pos hmay]
      simp only [ht]
    rw [hcommit] at hl ⊢
    by_cases hscreen : x = .screen
    · subst hscreen
      refine .launches ?_ hl (no_worker hi hc hmay)
      have hset : t.Aside j D (t.setStream .screen { t.stream .screen with
          running := true, active := true, done := some t.nextWorker }) :=
        Server.Aside.setStream _ fun _ _ ↦ rfl
      have hlaunch := Server.Launches.launchWorker (k := j) (D := D)
        (t.setStream .screen { t.stream .screen with
          running := true, active := true, done := some t.nextWorker })
        (hinstalls.conn.2.trans hconn) ctx gen ok
      exact .comp (haside.trans hset) hinstalls.worker.2 hlaunch
    · exact .aside (haside.trans (Server.Aside.startLaunch t hscreen gen ctx ok)) hl
  · rw [Session.startCommit_of_not_mayStart ok hmay] at hl ⊢
    refine .aside ?_ hl
    exact ((Server.Aside.cancelCtx _ _).trans
      (Server.Aside.closeSocket _ fun i hi ↦ (hsocket i hi).1)).trans (Server.Aside.startAbort ..)

/-- **What a step of a session does to the control socket.** -/
theorem controlStep (hi : SessionInv k s) (howned : s.server.HubOwned)
    (hcall : ∀ c i, (s.call c).socket = some i → ¬D i ∧ i < s.server.nextSocket)
    {e : Session.Event} (h : Session.step s e = some t) : ControlStep k D s t := by
  have hconn := hi.shared.conn
  rcases e with ⟨c, x⟩ | ⟨c, x, ok⟩ | ⟨c, ok⟩ | ⟨c, ok⟩ | ⟨w, ok⟩
  all_goals rw [Session.step] at h
  case start =>
    split at h
    · cases h
    rename_i hc
    have hl (r) := Leaving.put (c := c) (s := s) r fun conn dones h ↦ by
      cases (not_not.1 hc).symm.trans h
    split at h <;> cases h
    · exact .aside (Server.Aside.refl _) (hl _)
    · rename_i hx
      exact .aside (Server.Aside.startEnter _ hx hconn) (hl _)
  case stop =>
    split at h
    · cases h
    rename_i hc
    have hl (r) := Leaving.put (c := c) (s := s) r fun conn dones h ↦ by
      cases (not_not.1 hc).symm.trans h
    split at h <;> cases h
    · exact .aside (Server.Aside.refl _) (hl _)
    · rename_i hx
      obtain haside | ⟨hcalm, hhub⟩ := Server.stopEnter_control howned hconn hx ok
      · exact .aside haside (hl _)
      · exact .ends hcalm hhub (hl _)
  case disconnect =>
    split at h <;> cases h
    rename_i hc
    have hl (r) := Leaving.put (c := c) (s := s) r fun conn dones h ↦ by
      cases (not_not.1 hc).symm.trans h
    have habort := Server.Aside.abortConnect (k := k) (D := D) s.server
    rw [Server.disconnectEnter, Server.disconnectLocked]
    by_cases hconnected : s.server.connected = true
    · simp only [(Server.Frame.abortConnect s.server).connected, hconnected, if_true]
      obtain ⟨hworker, hnext, hstream⟩ : s.server.abortConnect.worker = s.server.worker ∧
          s.server.abortConnect.nextWorker = s.server.nextWorker ∧
          s.server.abortConnect.stream = s.server.stream := by
        rw [Server.abortConnect]
        split <;> exact ⟨rfl, rfl, rfl⟩
      have howned' : s.server.abortConnect.HubOwned := by
        refine ⟨fun ha ↦ ?_, fun ha w hw ↦ ?_⟩
        · rw [hstream, habort.hub]
          exact howned.hubGen (habort.hub ▸ ha)
        · rw [hworker, habort.hub]
          exact howned.worker (habort.hub ▸ ha) w ((Server.live_congr w hworker hnext).1 hw)
      have hend := Server.endsSession_endScreenSession howned' ok
      rw [habort.hub] at hend
      have hcalm := habort.toCalm.trans
        (Server.Calm.endScreenSession (k := k) (D := D) s.server.abortConnect ok)
      have hnext' : (s.server.abortConnect.endScreenSession ok).nextWorker =
          s.server.nextWorker := by
        rw [Server.endScreenSession]
        split <;> exact hnext
      refine .leaves (hcalm.toApart.trans { Server.Apart.refl (k := k) (D := D) _ with })
        hend rfl rfl
        hnext' ⟨c, _, _, Function.update_self ..⟩
    · simp only [(Server.Frame.abortConnect s.server).connected, hconnected, if_false,
        Bool.false_eq_true]
      exact .aside habort (hl _)
  case advance =>
    obtain ⟨r, hr, rfl⟩ := Option.map_eq_some_iff.1 h
    have hphase := hi.phase c
    have hl (hc : ∀ conn dones, s.call c ≠ .closing conn dones) :=
      Leaving.put (c := c) (s := s) r hc
    rcases hc : s.call c with
      _ | ⟨x, conn, waitGen, done⟩ | ⟨x, j, gen, ctx⟩ | ⟨x, j, gen⟩ | ⟨x, j, gen, ctx, socket⟩ |
      ⟨x, ctx⟩ | ⟨x, gen, done⟩ | ⟨conn, dones⟩ | dones | outcome
    all_goals rw [hc] at hr hphase hl
    all_goals rw [Session.advance] at hr
    case idle => cases hr
    case joining =>
      split at hr <;> cases hr
      exact .aside (Server.Aside.startResume _ hphase.1 hconn conn waitGen) (hl (by rintro _ _ ⟨⟩))
    case dialing =>
      split at hr <;> cases hr
      · exact .aside (Server.Aside.dialSocket _) (hl (by rintro _ _ ⟨⟩))
      · exact .aside (Server.Aside.cancelCtx ..) (hl (by rintro _ _ ⟨⟩))
    case dialFailed =>
      cases hr
      exact .aside (Server.Aside.startDialFailed ..) (hl (by rintro _ _ ⟨⟩))
    case dialed =>
      cases hr
      exact startCommit_control hi (hcall c) hc
    case stopCancelling =>
      cases hr
      exact .aside (Server.Aside.cancelCtx ..) (hl (by rintro _ _ ⟨⟩))
    case stopping =>
      split at hr <;> cases hr
      exact .aside (Server.Aside.stopFinish ..) (hl (by rintro _ _ ⟨⟩))
    case closing =>
      cases hr
      obtain rfl : conn = some k := hphase
      exact .closes ⟨c, _, _, hc⟩ rfl
    case waiting =>
      split at hr <;> cases hr
      exact .aside (Server.Aside.refl _) (hl (by rintro _ _ ⟨⟩))
    case returned => cases hr
  case worker =>
    obtain ⟨u, hu, rfl⟩ := Option.map_eq_some_iff.1 h
    have hexit (v : WorkerId) (hv : s.server.Live v)
        (hp : (s.server.worker v).phase.screenOnly = true) :
        (s.server.worker v).stream = .screen :=
      (hi.lane _ (hi.shared.worker v hv).2).exit v _
        (Server.liveOn_eq_some_iff.2 ⟨hv, rfl, rfl⟩) hp
    obtain haside | ⟨hcalm, hhub⟩ | hcontrol :=
      Server.workerStep_control howned hi.shared.worker hexit hu
    · exact .aside haside id
    · exact .ends hcalm hhub id
    · exact .control w hcontrol id

end ScreenControl

end AllRelay
