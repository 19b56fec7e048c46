import AllRelay.Controller.State

/-!
# What most sections leave alone

A section that neither launches a worker nor installs a socket is `Server.Quiet`: streams do not
become active, slots do not fill, generations do not go back, and what is closed stays closed. Most
sections also leave the connection alone (`Server.Frame`). There is one lemma for each operation of
`Controller.State`.
-/

namespace AllRelay.Server

/-- A section that launches no worker and installs no socket. -/
structure Quiet (s t : Server) : Prop where
  /-- A live worker was live before, and is the same but for its phase. -/
  live : ∀ w, t.Live w → s.Live w ∧ ∃ phase, t.worker w = { s.worker w with phase }
  /-- Sockets may be allocated. -/
  nextSocket : s.nextSocket ≤ t.nextSocket
  /-- A closed socket stays closed. -/
  socketClosed : ∀ c < s.nextSocket, s.socketClosed c = true → t.socketClosed c = true
  /-- Generations grow. -/
  gen : ∀ x, (s.stream x).gen ≤ (t.stream x).gen
  /-- No stream becomes active. -/
  active : ∀ x, (t.stream x).active = true → (s.stream x).active = true
  /-- No slot is filled. -/
  slot : ∀ k x, (s.connection k).slot x = none → (t.connection k).slot x = none

/-- A quiet section that neither replaces nor closes a connection. -/
structure Frame (s t : Server) : Prop extends Quiet s t where
  /-- `connected` is kept. -/
  connected : t.connected = s.connected
  /-- `conn` is kept. -/
  conn : t.conn = s.conn
  /-- No connection is allocated. -/
  nextConn : t.nextConn = s.nextConn
  /-- No connection is closed. -/
  closed : ∀ k, (t.connection k).closed = (s.connection k).closed
  /-- Contexts may be allocated. -/
  nextCtx : s.nextCtx ≤ t.nextCtx
  /-- A cancelled context stays cancelled. -/
  cancelled : ∀ c < s.nextCtx, s.cancelled c = true → t.cancelled c = true

variable {s t u : Server}

namespace Quiet

theorem refl (s : Server) : Quiet s s :=
  ⟨fun _ h ↦ ⟨h, _, rfl⟩, Nat.le_refl _, fun _ _ h ↦ h, fun _ ↦ Nat.le_refl _, fun _ h ↦ h,
    fun _ _ h ↦ h⟩

theorem trans (h : Quiet s t) (h' : Quiet t u) : Quiet s u where
  live w hw := by
    obtain ⟨ht, phase', hw'⟩ := h'.live w hw
    obtain ⟨hs, phase, hw⟩ := h.live w ht
    exact ⟨hs, phase', by rw [hw', hw]⟩
  nextSocket := Nat.le_trans h.nextSocket h'.nextSocket
  socketClosed c hc hcs :=
    h'.socketClosed c (Nat.lt_of_lt_of_le hc h.nextSocket) (h.socketClosed c hc hcs)
  gen x := Nat.le_trans (h.gen x) (h'.gen x)
  active x hx := h.active x (h'.active x hx)
  slot k x hx := h'.slot k x (h.slot k x hx)

/-- `Disconnect` stops every stream. -/
theorem detach (s : Server) : Quiet s s.detach :=
  { refl s with gen := fun _ ↦ Nat.le_succ _, active := nofun }

theorem closeConnection (s : Server) (k : ConnId) : Quiet s (s.closeConnection k) := by
  rw [Server.closeConnection]
  split
  · exact refl s
  · refine { refl s with socketClosed := fun c _ h ↦ ?_, slot := fun j x hx ↦ ?_ }
    · simp [h]
    · simp only [Function.update_apply]
      split
      · rfl
      · exact hx

theorem closeConn (s : Server) (conn : Option ConnId) : Quiet s (s.closeConn conn) := by
  cases conn
  · exact refl s
  · exact closeConnection ..

end Quiet

namespace Frame

theorem refl (s : Server) : Frame s s :=
  ⟨Quiet.refl s, rfl, rfl, rfl, fun _ ↦ rfl, Nat.le_refl _, fun _ _ h ↦ h⟩

theorem trans (h : Frame s t) (h' : Frame t u) : Frame s u where
  toQuiet := h.toQuiet.trans h'.toQuiet
  connected := h'.connected.trans h.connected
  conn := h'.conn.trans h.conn
  nextConn := h'.nextConn.trans h.nextConn
  closed k := (h'.closed k).trans (h.closed k)
  nextCtx := Nat.le_trans h.nextCtx h'.nextCtx
  cancelled c hc hcs := h'.cancelled c (Nat.lt_of_lt_of_le hc h.nextCtx) (h.cancelled c hc hcs)

/-- A change of fields that `Frame` does not speak about. -/
theorem of_eq (hn : t.connected = s.connected) (hc : t.conn = s.conn)
    (hk : t.nextConn = s.nextConn) (hx : t.connection = s.connection) (hm : t.stream = s.stream)
    (hw : t.worker = s.worker) (hw' : t.nextWorker = s.nextWorker) (hg : t.nextCtx = s.nextCtx)
    (hd : t.cancelled = s.cancelled) (hs : t.nextSocket = s.nextSocket)
    (he : t.socketClosed = s.socketClosed) : Frame s t where
  live w h := ⟨(live_congr w hw hw').1 h, _, by rw [hw]⟩
  nextSocket := Nat.le_of_eq hs.symm
  socketClosed c _ h := by rwa [he]
  gen x := Nat.le_of_eq (congrArg StreamController.gen (congrFun hm.symm x))
  active x h := by rwa [hm] at h
  slot k x h := by rwa [hx]
  connected := hn
  conn := hc
  nextConn := hk
  closed k := by rw [hx]
  nextCtx := Nat.le_of_eq hg.symm
  cancelled c _ h := by rwa [hd]

theorem cancelCtx (s : Server) (ctx : Option CtxId) : Frame s (s.cancel ctx) :=
  { refl s with cancelled := fun c _ h ↦ by simp [Server.cancel, h] }

theorem withCancel (s : Server) : Frame s s.withCancel :=
  { refl s with
    nextCtx := Nat.le_succ _
    cancelled := fun _ hc h ↦ (s.withCancel_cancelled hc).trans h }

theorem closeSocket (s : Server) (socket : Option SocketId) : Frame s (s.closeSocket socket) :=
  { refl s with socketClosed := fun c _ h ↦ by simp [Server.closeSocket, h] }

theorem dialSocket (s : Server) : Frame s s.dialSocket :=
  { refl s with
    nextSocket := Nat.le_succ _
    socketClosed := fun _ hc h ↦ (Function.update_of_ne (Nat.ne_of_lt hc) ..).trans h }

theorem clearSlot (s : Server) (k : ConnId) (x : StreamId) : Frame s (s.setSlot k x none) :=
  { refl s with
    closed := fun j ↦ s.setSlot_closed k j x none
    slot := fun j y h ↦ by
      rw [setSlot_slot]
      split
      · rfl
      · exact h }

theorem closeStream (s : Server) (k : ConnId) (x : StreamId) : Frame s (s.closeStream k x) :=
  (clearSlot s k x).trans (closeSocket ..)

theorem closeControlConn (s : Server) (k : ConnId) (socket : Option SocketId) :
    Frame s (s.closeControlConn k socket) := by
  rcases socket with _ | c
  · exact refl s
  · refine Frame.trans (t := if (s.connection k).slot .control = some c then
      s.setSlot k .control none else s) ?_ (closeSocket ..)
    split
    · exact clearSlot ..
    · exact refl s

theorem setStream (s : Server) {x : StreamId} {c : StreamController}
    (hgen : (s.stream x).gen ≤ c.gen) (hactive : c.active = true → (s.stream x).active = true) :
    Frame s (s.setStream x c) :=
  { refl s with
    gen := fun y ↦ by
      rw [setStream_stream]
      split
      · rename_i hy
        exact hy ▸ hgen
      · exact Nat.le_refl _
    active := fun y hy ↦ by
      rw [setStream_stream] at hy
      split at hy
      · rename_i hyx
        exact hyx ▸ hactive hy
      · exact hy }

theorem setPhase {w : WorkerId} (h : s.Live w) (phase : WorkerPhase) :
    Frame s (s.setPhase w phase) :=
  { refl s with
    live := fun v hv ↦ by
      rw [Server.Live, Server.setPhase_worker] at hv
      rw [Server.setPhase_worker]
      split
      · rename_i hvw
        exact ⟨hvw ▸ h, phase, by rw [hvw]⟩
      · rename_i hvw
        rw [if_neg hvw] at hv
        exact ⟨hv, _, rfl⟩ }

theorem endScreenSession (s : Server) (ok : Bool) : Frame s (s.endScreenSession ok) := by
  rw [Server.endScreenSession]
  split
  · have hub : Frame s { s with hub := (s.hub.endScreenSession (s.stream .screen).hubGen ok).1 } :=
      of_eq rfl rfl rfl rfl rfl rfl rfl rfl rfl rfl rfl
    exact hub.trans (setStream _ (Nat.le_refl _) id)
  · exact refl s

theorem closeScreenControl (s : Server) (k : ConnId) (gen hubGen : ℕ) :
    Frame s (s.closeScreenControl k gen hubGen) := by
  rw [Server.closeScreenControl]
  split
  · exact (of_eq rfl rfl rfl rfl rfl rfl rfl rfl rfl rfl rfl : Frame s s.clearControl).trans
      (closeControlConn ..)
  · exact refl s

theorem workerCleanup (s : Server) (v : Worker) : Frame s (s.workerCleanup v) := by
  rw [Server.workerCleanup]
  split
  · split
    · rename_i hv
      exact setStream _ (hv ▸ Nat.le_refl (s.stream v.stream).gen) (by rintro ⟨⟩)
    · exact (closeStream s v.conn v.stream).trans (setStream _ (Nat.le_refl _) (by rintro ⟨⟩))
  · exact refl s

theorem abortConnect (s : Server) : Frame s s.abortConnect := by
  rw [Server.abortConnect]
  split
  · exact (cancelCtx ..).trans (of_eq rfl rfl rfl rfl rfl rfl rfl rfl rfl rfl rfl)
  · exact refl s

/-- No step of a worker does more than end the worker. -/
theorem workerStep {w : WorkerId} {ok : Bool} (h : s.workerStep w ok = some t) : Frame s t := by
  rw [Server.workerStep] at h
  split at h
  · cases h
  · rename_i hw
    have live (hp : (s.worker w).phase ≠ .exited) : s.Live w := ⟨Nat.lt_of_not_le hw, hp⟩
    split at h <;> rename_i hp <;> cases h
    · exact setPhase (live (by rw [hp]; decide)) _
    · exact (setPhase (live (by rw [hp]; decide)) _).trans
        (of_eq rfl rfl rfl rfl rfl rfl rfl rfl rfl rfl rfl)
    · have hv := s.closeScreenControl_worker (s.worker w).conn (s.worker w).gen (s.worker w).hubGen
      exact (closeScreenControl ..).trans
        (setPhase ((live_congr w hv.1 hv.2).2 (live (by rw [hp]; decide))) _)
    · have hv : (s.closeStream (s.worker w).conn .screen).Live w := live (by rw [hp]; decide)
      exact (closeStream ..).trans (setPhase hv _)
    · have hv := s.workerCleanup_worker (s.worker w)
      exact (workerCleanup ..).trans
        (setPhase ((live_congr w hv.1 hv.2).2 (live (by rw [hp]; decide))) _)
    · have hv : (s.cancel (some (s.worker w).ctx)).Live w := live (by rw [hp]; decide)
      exact (cancelCtx ..).trans (setPhase hv _)
    · exact setPhase (live (by rw [hp]; decide)) _

end Frame

/-- The locked section of `Disconnect` is quiet. -/
theorem Quiet.disconnectLocked (s : Server) (ok : Bool) : Quiet s (s.disconnectLocked ok).1 := by
  have h := Frame.abortConnect s
  rw [Server.disconnectLocked]
  split
  · exact (h.trans (Frame.endScreenSession _ ok)).toQuiet.trans (Quiet.detach _)
  · exact h.toQuiet

end AllRelay.Server
