import AllRelay.Controller.Session

/-!
# Which streams are active

A stream becomes active when a start commits, or a `Connect`, which takes a new generation for its
speaker. A start whose generation is still current is the only one that may make its stream active,
so a start that gives up finds the stream inactive (`PendingStarts.inactive`), and an active stream
is running. This holds for every interleaving of `Connect`, `Disconnect` and `ToggleStream`: each of
their sections is `Calm`, or `Moves` says what becomes of the start that runs it.
-/

namespace AllRelay

/-- A stream controller over a section: a stream that becomes active is running and in a new
generation. -/
structure Calm (c d : StreamController) : Prop where
  /-- Generations grow. -/
  gen : c.gen ≤ d.gen
  /-- A stream becomes active in a new generation. -/
  active : d.active = true → c.gen < d.gen ∨ c.active = true
  /-- An active stream is running, if it was before. -/
  running : d.active = true → (c.active = true → c.running = true) → d.running = true

namespace Calm

variable {c d e : StreamController}

/-- A section that touches neither flag. -/
theorem of_eq (hgen : c.gen ≤ d.gen) (hactive : d.active = c.active)
    (hrunning : d.running = c.running) : Calm c d where
  gen := hgen
  active h := .inr (hactive ▸ h)
  running h hc := by rw [hrunning, hc (hactive ▸ h)]

theorem refl (c : StreamController) : Calm c c :=
  of_eq (Nat.le_refl _) rfl rfl

/-- A section that makes the stream inactive. -/
theorem inactive (hgen : c.gen ≤ d.gen) (hactive : d.active = false) : Calm c d where
  gen := hgen
  active h := absurd (hactive ▸ h) Bool.false_ne_true
  running h := absurd (hactive ▸ h) Bool.false_ne_true

/-- A section that makes the stream active and running in a new generation. -/
theorem fresh (hgen : c.gen < d.gen) (hrunning : d.running = true) : Calm c d where
  gen := Nat.le_of_lt hgen
  active _ := .inl hgen
  running _ _ := hrunning

theorem trans (h : Calm c d) (h' : Calm d e) : Calm c e where
  gen := Nat.le_trans h.gen h'.gen
  active he := by
    rcases h'.active he with hlt | hd
    · exact .inl (Nat.lt_of_le_of_lt h.gen hlt)
    · exact (h.active hd).imp_left fun hlt ↦ Nat.lt_of_lt_of_le hlt h'.gen
  running he hc := h'.running he fun hd ↦ h.running hd hc

end Calm

namespace Server

open Connecting Session

variable (s : Server) (k : ConnId) (x y : StreamId)

/-! ### Operations that leave the streams alone -/

section Streams

@[simp]
theorem installStream_streams (socket : SocketId) :
    (s.installStream k x socket).1.stream = s.stream ∧
      (s.installStream k x socket).1.connected = s.connected := by
  simp only [installStream]
  split_ifs <;> exact ⟨rfl, rfl⟩

@[simp]
theorem closeConnection_streams :
    (s.closeConnection k).stream = s.stream ∧
      (s.closeConnection k).connected = s.connected := by
  rw [closeConnection]
  split_ifs <;> exact ⟨rfl, rfl⟩

@[simp]
theorem closeConn_streams (conn : Option ConnId) :
    (s.closeConn conn).stream = s.stream ∧ (s.closeConn conn).connected = s.connected := by
  cases conn
  · exact ⟨rfl, rfl⟩
  · exact s.closeConnection_streams _

@[simp]
theorem closeConnStream_streams (conn : Option ConnId) :
    (s.closeConnStream conn x).stream = s.stream ∧
      (s.closeConnStream conn x).connected = s.connected := by
  cases conn <;> exact ⟨rfl, rfl⟩

@[simp]
theorem closeControlConn_streams (socket : Option SocketId) :
    (s.closeControlConn k socket).stream = s.stream ∧
      (s.closeControlConn k socket).connected = s.connected := by
  rcases socket with _ | c
  · exact ⟨rfl, rfl⟩
  · simp only [closeControlConn]
    split_ifs <;> exact ⟨rfl, rfl⟩

@[simp]
theorem closeScreenControl_streams (gen hubGen : ℕ) :
    (s.closeScreenControl k gen hubGen).stream = s.stream ∧
      (s.closeScreenControl k gen hubGen).connected = s.connected := by
  rw [closeScreenControl]
  split
  · exact s.clearControl.closeControlConn_streams k _
  · exact ⟨rfl, rfl⟩

@[simp]
theorem abortConnect_streams :
    s.abortConnect.stream = s.stream ∧ s.abortConnect.connected = s.connected := by
  rw [abortConnect]
  split_ifs <;> exact ⟨rfl, rfl⟩

@[simp]
theorem connectFailed_streams (gen : ℕ) :
    (s.connectFailed gen).stream = s.stream ∧
      (s.connectFailed gen).connected = s.connected := by
  rw [connectFailed]
  split_ifs <;> exact ⟨rfl, rfl⟩

@[simp]
theorem connectEnter_streams :
    s.connectEnter.1.stream = s.stream ∧ s.connectEnter.1.connected = s.connected := by
  simp only [connectEnter]
  split_ifs <;> exact ⟨rfl, rfl⟩

end Streams

/-! ### Operations that keep the flags of the streams -/

/-- The flags and the generation of a stream are kept. -/
structure SameFlags (c d : StreamController) : Prop where
  active : d.active = c.active
  running : d.running = c.running
  gen : d.gen = c.gen

theorem SameFlags.calm {c d : StreamController} (h : SameFlags c d) : Calm c d :=
  .of_eq (Nat.le_of_eq h.gen.symm) h.active h.running

/-- A stream controller is replaced. -/
theorem setStream_rel {R : StreamController → StreamController → Prop} (hrefl : ∀ c, R c c)
    {c : StreamController} (h : R (s.stream x) c) :
    R (s.stream y) ((s.setStream x c).stream y) := by
  rw [setStream_stream]
  split
  · rename_i hy
    exact hy ▸ h
  · exact hrefl _

theorem SameFlags.refl (c : StreamController) : SameFlags c c :=
  ⟨rfl, rfl, rfl⟩

theorem endScreenSession_sameFlags (ok : Bool) :
    SameFlags (s.stream y) ((s.endScreenSession ok).stream y) := by
  simp only [endScreenSession]
  split
  · exact setStream_rel { s with hub := _ } .screen y SameFlags.refl ⟨rfl, rfl, rfl⟩
  · exact SameFlags.refl _

@[simp]
theorem endScreenSession_connected (ok : Bool) :
    (s.endScreenSession ok).connected = s.connected := by
  simp only [endScreenSession]
  split_ifs <;> rfl

theorem launchWorker_sameFlags (ctx : CtxId) (gen : ℕ) (ok : Bool) :
    SameFlags (s.stream y) ((s.launchWorker x k ctx gen ok).stream y) := by
  cases x with
  | screen => exact setStream_rel { s with hub := _ } .screen y SameFlags.refl ⟨rfl, rfl, rfl⟩
  | camera | mic | speaker | control => exact SameFlags.refl _

@[simp]
theorem launchWorker_connected (ctx : CtxId) (gen : ℕ) (ok : Bool) :
    (s.launchWorker x k ctx gen ok).connected = s.connected := by
  cases x <;> rfl

/-! ### The sections of Connect, of Disconnect and of the workers -/

theorem launchSpeakerWorkerLocked_calm :
    Calm (s.stream y) ((s.launchSpeakerWorkerLocked k).stream y) := by
  simp only [launchSpeakerWorkerLocked]
  split
  · exact setStream_rel s.withCancel .speaker y Calm.refl (.fresh (Nat.lt_succ_self _) rfl)
  · exact setStream_rel s .speaker y Calm.refl (.inactive (Nat.le_refl _) rfl)

theorem connectCommit_calm (gen : ℕ) (ctx : CtxId) :
    Calm (s.stream y) ((s.connectCommit gen ctx k).stream y) := by
  rw [connectCommit]
  split
  · exact launchSpeakerWorkerLocked_calm
      { s with connectCancel := none, conn := some k, connected := true } k y
  · rw [(s.closeConnection_streams k).1]
    exact .refl _

theorem disconnectLocked_calm (ok : Bool) :
    Calm (s.stream y) ((s.disconnectLocked ok).1.stream y) := by
  rw [disconnectLocked]
  split
  · have h := s.abortConnect.endScreenSession_sameFlags y ok
    rw [s.abortConnect_streams.1] at h
    exact h.calm.trans (.inactive (Nat.le_succ _) rfl)
  · rw [s.abortConnect_streams.1]
    exact .refl _

/-- Every section of `Connect` and `Disconnect` is calm. -/
theorem connecting_calm {t : Server} {ok : Bool} {p q : Connecting.Phase}
    (h : Connecting.advance s ok p = some (t, q)) : Calm (s.stream y) (t.stream y) := by
  cases p with
  | idle | returned conn => cases h
  | disconnect middle =>
    have hcalm := s.disconnectLocked_calm y ok
    simp only [Connecting.advance, disconnectSection] at h
    split at h <;> rename_i hr
    all_goals
      cases h
      rw [hr] at hcalm
      exact hcalm
  | closing middle conn dones =>
    cases h
    rw [(s.closeConn_streams conn).1]
    exact .refl _
  | waiting middle dones =>
    simp only [Connecting.advance] at h
    split at h
    · cases h
      exact .refl _
    · cases h
  | relock =>
    cases h
    exact .refl _
  | dialing gen ctx =>
    simp only [Connecting.advance] at h
    split at h <;> cases h <;> exact .refl _
  | dialFailed gen =>
    cases h
    rw [(s.connectFailed_streams gen).1]
    exact .refl _
  | dialed gen ctx k =>
    cases h
    exact s.connectCommit_calm k y gen ctx

theorem workerCleanup_calm (v : Worker) : Calm (s.stream y) ((s.workerCleanup v).stream y) := by
  rw [workerCleanup]
  split
  · split
    · rename_i hx
      rw [hx]
      exact setStream_rel s .screen y Calm.refl (.inactive (Nat.le_refl _) rfl)
    · exact setStream_rel (s.closeStream v.conn v.stream) v.stream y Calm.refl
        (.inactive (Nat.le_refl _) rfl)
  · exact .refl _

/-- Every step of a worker is calm. -/
theorem workerStep_calm {t : Server} {w : WorkerId} {ok : Bool} (h : s.workerStep w ok = some t) :
    Calm (s.stream y) (t.stream y) := by
  simp only [workerStep] at h
  split at h
  · cases h
  · split at h <;> cases h
    case h_3 => exact (s.closeScreenControl_streams ..).1 ▸ .refl _
    case h_5 => exact s.workerCleanup_calm y (s.worker w)
    all_goals exact .refl _

/-! ### The sections of ToggleStream -/

/-- What a section of `ToggleStream` does with the start that runs it: `p` and `q` are the stream
and the generation of the start, as long as it is pending, before and after the section. -/
inductive Moves (s t : Server) (p q : Option (StreamId × ℕ)) : Prop where
  /-- The start goes on, or is over. -/
  | calm (hcalm : ∀ y, Calm (s.stream y) (t.stream y)) (hq : q = none ∨ q = p)
  /-- A start takes a new generation of an inactive stream. -/
  | take (x : StreamId) (hcalm : ∀ y, Calm (s.stream y) (t.stream y))
      (hq : q = some (x, (t.stream x).gen)) (hgen : (s.stream x).gen < (t.stream x).gen)
      (hactive : (t.stream x).active = false)
  /-- The start commits: its stream becomes active. -/
  | commit (x : StreamId) (hp : p = some (x, (s.stream x).gen)) (hq : q = none)
      (hgen : (t.stream x).gen = (s.stream x).gen) (hrunning : (t.stream x).running = true)
      (hcalm : ∀ y ≠ x, Calm (s.stream y) (t.stream y))

end Server

/-- The stream and the generation of a start that may still commit. -/
def Session.Phase.pending : Session.Phase → Option (StreamId × ℕ)
  | .joining x _ gen _ => some (x, gen)
  | .dialing x _ gen _ => some (x, gen)
  | .dialFailed x _ gen => some (x, gen)
  | .dialed x _ gen _ _ => some (x, gen)
  | _ => none

namespace Server

open Connecting Session

variable (s : Server) (k : ConnId) (x y : StreamId)

theorem Moves.done {s t : Server} {p : Option (StreamId × ℕ)}
    (hcalm : ∀ y, Calm (s.stream y) (t.stream y)) : Moves s t p none :=
  .calm hcalm (.inl rfl)

/-- A start takes the next generation of its stream and touches no other stream. -/
structure TakesGen (s t : Server) (x : StreamId) (q : Option (StreamId × ℕ)) : Prop where
  other : ∀ y ≠ x, t.stream y = s.stream y
  gen : (t.stream x).gen = (s.stream x).gen + 1
  active : (t.stream x).active = (s.stream x).active
  pending : q = some (x, (s.stream x).gen + 1)

theorem TakesGen.of_update {s t : Server} {x : StreamId} {c : StreamController}
    {q : Option (StreamId × ℕ)} (ht : t.stream = Function.update s.stream x c)
    (hgen : c.gen = (s.stream x).gen + 1) (hactive : c.active = (s.stream x).active)
    (hq : q = some (x, (s.stream x).gen + 1)) : TakesGen s t x q where
  other y hy := by rw [ht, Function.update_of_ne hy]
  gen := by rw [ht, Function.update_self, hgen]
  active := by rw [ht, Function.update_self, hactive]
  pending := hq

theorem TakesGen.moves {s t : Server} {x : StreamId} {p q : Option (StreamId × ℕ)}
    (h : TakesGen s t x q) (hactive : (s.stream x).active = false) : Moves s t p q := by
  refine .take x (fun y ↦ ?_) (h.gen ▸ h.pending) (h.gen ▸ Nat.lt_succ_self _)
    (h.active.trans hactive)
  obtain rfl | hy := eq_or_ne y x
  · exact .inactive (h.gen ▸ Nat.le_succ _) (h.active.trans hactive)
  · exact h.other y hy ▸ .refl _

/-- `startDial` returns, or takes a new generation of the stream. -/
theorem startDial_streams :
    (s.startDial x).1.connected = s.connected ∧
      ((s.startDial x).1.stream = s.stream ∧ (s.startDial x).2.pending = none ∨
        TakesGen s (s.startDial x).1 x (s.startDial x).2.pending) := by
  rw [startDial.eq_def]
  split
  · exact ⟨rfl, .inl ⟨rfl, rfl⟩⟩
  · dsimp only
    refine ⟨?_, .inr (.of_update
      (c := { s.stream x with gen := (s.stream x).gen + 1, cancel := some s.nextCtx })
      ?_ rfl rfl ?_)⟩
    all_goals split_ifs <;> rfl

theorem startDial_moves {p : Option (StreamId × ℕ)} (h : (s.stream x).active = false) :
    Moves s (s.startDial x).1 p (s.startDial x).2.pending := by
  rcases (s.startDial_streams x).2 with ⟨hs, hp⟩ | htakes
  · exact hp ▸ .done fun y ↦ hs ▸ .refl _
  · exact htakes.moves h

theorem startEnter_moves (h : (s.stream x).active = true → (s.stream x).running = true) :
    Moves s (s.startEnter x).1 none (s.startEnter x).2.pending := by
  simp only [startEnter]
  split_ifs with hconn hrun hdone
  · exact .done fun y ↦ .refl _
  · exact .done fun y ↦ .refl _
  all_goals
    have hactive : (s.stream x).active = false := by
      rw [Bool.eq_false_iff]
      exact fun ha ↦ hrun ⟨h ha, ha⟩
  · refine TakesGen.moves (.of_update (closeConnStream_streams ..).1 rfl rfl rfl) hactive
  · exact s.startDial_moves x hactive

theorem startResume_moves (conn : Option ConnId) (waitGen : ℕ)
    (h : (s.stream x).gen = waitGen → (s.stream x).active = false) :
    Moves s (s.startResume x conn waitGen).1 (some (x, waitGen))
      (s.startResume x conn waitGen).2.pending := by
  simp only [startResume]
  split_ifs with hgone
  · exact .done fun y ↦ .refl _
  · have hactive : (s.stream x).active = false := h (by simpa using (not_or.1 (not_or.1 hgone).2).2)
    let c : StreamController := { s.stream x with done := none, running := false }
    have hx : (s.setStream x c).stream x = c := Function.update_self ..
    have hcalm : ∀ y, Calm (s.stream y) ((s.setStream x c).stream y) :=
      fun y ↦ setStream_rel s x y Calm.refl (.inactive (Nat.le_refl _) hactive)
    rcases ((s.setStream x c).startDial_streams x).2 with ⟨hs, hp⟩ | htakes
    · exact hp ▸ .done fun y ↦ hs ▸ hcalm y
    · refine TakesGen.moves ⟨fun y hy ↦ ?_, ?_, ?_, ?_⟩ hactive
      · rw [htakes.other y hy, setStream_stream, if_neg hy]
      · rw [htakes.gen, hx]
      · rw [htakes.active, hx]
      · rw [htakes.pending, hx]

theorem startAbort_calm (gen : ℕ) : Calm (s.stream y) ((s.startAbort x gen).stream y) := by
  simp only [startAbort]
  split
  · exact setStream_rel s x y Calm.refl (.inactive (Nat.le_refl _) rfl)
  · exact .refl _

theorem startDialFailed_calm (gen : ℕ) :
    Calm (s.stream y) ((s.startDialFailed x k gen).stream y) := by
  rw [startDialFailed]
  split
  · exact s.startAbort_calm x y gen
  · exact .refl _

theorem stopFinish_calm (gen : ℕ) : Calm (s.stream y) ((s.stopFinish x gen).stream y) := by
  simp only [stopFinish]
  split
  · exact setStream_rel s x y Calm.refl (.inactive (Nat.le_refl _) rfl)
  · exact .refl _

theorem stopEnter_calm (ok : Bool) :
    (∀ y, Calm (s.stream y) ((s.stopEnter x ok).1.stream y)) ∧
      (s.stopEnter x ok).2.pending = none := by
  simp only [stopEnter]
  have hcalm : ∀ y, Calm (s.stream y) ((s.setStream x { s.stream x with
      cancel := none, gen := (s.stream x).gen + 1, active := false }).stream y) :=
    fun y ↦ setStream_rel s x y Calm.refl (.inactive (Nat.le_succ _) rfl)
  split_ifs
  · exact ⟨fun y ↦ .refl _, rfl⟩
  · exact ⟨hcalm, rfl⟩
  · refine ⟨fun y ↦ ?_, rfl⟩
    rw [(closeConnStream_streams ..).1]
    exact (hcalm y).trans (endScreenSession_sameFlags _ y ok).calm
  · refine ⟨fun y ↦ ?_, rfl⟩
    rw [(closeConnStream_streams ..).1]
    exact hcalm y

/-- The launch of a start makes its stream active and running. -/
theorem startLaunch_streams (gen : ℕ) (ctx : CtxId) (ok : Bool) :
    (s.startLaunch x k gen ctx ok).connected = s.connected ∧
      ((s.startLaunch x k gen ctx ok).stream x).gen = (s.stream x).gen ∧
      ((s.startLaunch x k gen ctx ok).stream x).running = true ∧
      ∀ y ≠ x, SameFlags (s.stream y) ((s.startLaunch x k gen ctx ok).stream y) := by
  have h := (s.setStream x { s.stream x with
    running := true, active := true, done := some s.nextWorker }).launchWorker_sameFlags k x
  refine ⟨launchWorker_connected .., ?_, ?_, fun y hy ↦ ?_⟩
  · exact (h x ctx gen ok).gen.trans (by rw [setStream_stream, if_pos rfl])
  · exact (h x ctx gen ok).running.trans (by rw [setStream_stream, if_pos rfl])
  · have hy' := h y ctx gen ok
    rwa [setStream_stream, if_neg hy] at hy'

theorem startCommit_moves (gen : ℕ) (ctx : CtxId) (socket : Option SocketId) (ok : Bool) :
    Moves s (s.startCommit x k gen ctx socket ok).1 (some (x, gen))
      (s.startCommit x k gen ctx socket ok).2.pending := by
  rw [startCommit.eq_def]
  split
  · rename_i hmay
    have hgen : (s.stream x).gen = gen := by
      have := of_decide_eq_true hmay
      exact this.2.2.1
    subst hgen
    split
    · obtain ⟨-, hg, hr, hy⟩ := s.startLaunch_streams k x (s.stream x).gen ctx ok
      exact .commit x rfl rfl hg hr fun y hne ↦ (hy y hne).calm
    · rename_i c
      have hs := (s.installStream_streams k x c).1
      split <;> rename_i t hi
      all_goals rw [hi] at hs
      · obtain ⟨-, hg, hr, hy⟩ := t.startLaunch_streams k x (s.stream x).gen ctx ok
        rw [hs] at hg hy
        exact .commit x rfl rfl hg hr fun y hne ↦ (hy y hne).calm
      · exact .done fun y ↦ hs ▸ startAbort_calm ((t.cancel (some ctx)).closeSocket (some c)) x y _
  · exact .done fun y ↦ startAbort_calm ((s.cancel (some ctx)).closeSocket socket) x y gen

end Server

/-! ### The invariant -/

/-- The starts that may still commit, with their streams and generations. -/
structure PendingStarts (stream : StreamId → StreamController)
    (pending : ℕ → Option (StreamId × ℕ)) : Prop where
  /-- An active stream is running. -/
  running : ∀ x, (stream x).active = true → (stream x).running = true
  /-- A start took its generation from the stream. -/
  le : ∀ c x gen, pending c = some (x, gen) → gen ≤ (stream x).gen
  /-- While the generation of a start is current, its stream is inactive. -/
  inactive : ∀ c x, pending c = some (x, (stream x).gen) → (stream x).active = false
  /-- Two starts of one stream have different generations. -/
  unique : ∀ c d x gen, pending c = some (x, gen) → pending d = some (x, gen) → c = d

namespace PendingStarts

variable {stream stream' : StreamId → StreamController} {pending : ℕ → Option (StreamId × ℕ)}

/-- A calm section of somebody else. -/
theorem calm (h : PendingStarts stream pending) (hcalm : ∀ x, Calm (stream x) (stream' x)) :
    PendingStarts stream' pending where
  running x hx := (hcalm x).running hx (h.running x)
  le c x gen hc := Nat.le_trans (h.le c x gen hc) (hcalm x).gen
  inactive c x hc := by
    have hgen : (stream' x).gen = (stream x).gen :=
      Nat.le_antisymm (h.le c x _ hc) (hcalm x).gen
    rw [Bool.eq_false_iff]
    intro hx
    rcases (hcalm x).active hx with hlt | hactive
    · exact absurd hgen (Nat.ne_of_gt hlt)
    · rw [h.inactive c x (hgen ▸ hc)] at hactive
      exact Bool.false_ne_true hactive
  unique := h.unique

/-- A start is over, or goes on. -/
theorem drop (h : PendingStarts stream pending) {c : ℕ} {q : Option (StreamId × ℕ)}
    (hq : q = none ∨ q = pending c) : PendingStarts stream (Function.update pending c q) := by
  have hsub : ∀ d p, Function.update pending c q d = some p → pending d = some p := by
    intro d p hd
    rw [Function.update_apply] at hd
    split at hd
    · rename_i hdc
      rcases hq with rfl | rfl
      · cases hd
      · exact hdc ▸ hd
    · exact hd
  exact ⟨h.running, fun d x gen hd ↦ h.le d x gen (hsub d _ hd),
    fun d x hd ↦ h.inactive d x (hsub d _ hd),
    fun d e x gen hd he ↦ h.unique d e x gen (hsub d _ hd) (hsub e _ he)⟩

/-- A start takes a new generation of an inactive stream. -/
theorem take (h : PendingStarts stream pending) {c : ℕ} {x : StreamId}
    (hcalm : ∀ y, Calm (stream y) (stream' y)) (hgen : (stream x).gen < (stream' x).gen)
    (hactive : (stream' x).active = false) :
    PendingStarts stream' (Function.update pending c (some (x, (stream' x).gen))) := by
  have h' := h.calm hcalm
  -- Every other start of the stream has an older generation.
  have hother : ∀ d, pending d ≠ some (x, (stream' x).gen) :=
    fun d hd ↦ absurd (h.le d x _ hd) (Nat.not_le_of_gt hgen)
  refine ⟨h'.running, fun d y gen hd ↦ ?_, fun d y hd ↦ ?_, fun d e y gen hd he ↦ ?_⟩
  · rw [Function.update_apply] at hd
    split at hd
    · cases hd
      exact Nat.le_refl _
    · exact h'.le d y gen hd
  · rw [Function.update_apply] at hd
    split at hd
    · have hy : x = y := congrArg Prod.fst (Option.some.inj hd)
      exact hy ▸ hactive
    · exact h'.inactive d y hd
  · rw [Function.update_apply] at hd he
    split at hd <;> split at he
    · rename_i hdc hec
      exact hdc.trans hec.symm
    · cases hd
      exact absurd he (hother e)
    · cases he
      exact absurd hd (hother d)
    · exact h'.unique d e y gen hd he

/-- A start whose generation is current makes its stream active. -/
theorem commit (h : PendingStarts stream pending) {c : ℕ} {x : StreamId}
    (hc : pending c = some (x, (stream x).gen)) (hgen : (stream' x).gen = (stream x).gen)
    (hrunning : (stream' x).running = true) (hcalm : ∀ y ≠ x, Calm (stream y) (stream' y)) :
    PendingStarts stream' (Function.update pending c none) := by
  have hsub : ∀ {d p}, Function.update pending c none d = some p → pending d = some p ∧ d ≠ c := by
    intro d p hd
    rw [Function.update_apply] at hd
    split at hd
    · cases hd
    · exact ⟨hd, ‹_›⟩
  -- The streams of the other starts are as calm as before.
  have hother : ∀ y ≠ x, PendingStarts (fun z ↦ if z = y then stream' y else stream z) pending := by
    intro y hy
    refine h.calm fun z ↦ ?_
    split
    · rename_i hz
      exact hz ▸ hcalm y hy
    · exact .refl _
  refine ⟨fun y hy ↦ ?_, fun d y gen hd ↦ ?_, fun d y hd ↦ ?_, fun d e y gen hd he ↦
    h.unique d e y gen (hsub hd).1 (hsub he).1⟩
  · obtain rfl | hne := eq_or_ne y x
    · exact hrunning
    · exact (hcalm y hne).running hy (h.running y)
  · obtain rfl | hne := eq_or_ne y x
    · exact hgen ▸ h.le d y gen (hsub hd).1
    · simpa using (hother y hne).le d y gen (hsub hd).1
  · obtain rfl | hne := eq_or_ne y x
    · rw [hgen] at hd
      exact absurd (h.unique d c y _ (hsub hd).1 hc) (hsub hd).2
    · simpa using (hother y hne).inactive d y (by simpa using (hsub hd).1)

/-- What a section of `ToggleStream` does keeps the invariant. -/
theorem moves {s t : Server} {pending : ℕ → Option (StreamId × ℕ)} {c : ℕ}
    {q : Option (StreamId × ℕ)} (h : PendingStarts s.stream pending)
    (hmoves : Server.Moves s t (pending c) q) :
    PendingStarts t.stream (Function.update pending c q) := by
  cases hmoves with
  | calm hcalm hq => exact (h.calm hcalm).drop hq
  | take x hcalm hq hgen hactive => exact hq ▸ h.take hcalm hgen hactive
  | commit x hp hq hgen hrunning hcalm => exact hq ▸ h.commit hp hgen hrunning hcalm

end PendingStarts

/-- The sections of a call of `ToggleStream`. -/
theorem Session.advance_moves {s : Server} {ok : Bool} {p : Session.Phase}
    {r : Server × Session.Phase} (h : Session.advance s ok p = some r)
    (hinactive : ∀ x, p.pending = some (x, (s.stream x).gen) → (s.stream x).active = false) :
    Server.Moves s r.1 p.pending r.2.pending := by
  cases p with
  | idle | returned outcome => cases h
  | joining x conn waitGen done =>
    simp only [Session.advance] at h
    split at h
    · cases h
      exact s.startResume_moves x conn waitGen fun hgen ↦ hinactive x (hgen ▸ rfl)
    · cases h
  | dialing x k gen ctx =>
    simp only [Session.advance] at h
    split at h
    all_goals
      cases h
      exact .calm (fun y ↦ .refl _) (.inr rfl)
  | dialFailed x k gen =>
    cases h
    exact .done fun y ↦ s.startDialFailed_calm k x y gen
  | dialed x k gen ctx socket =>
    cases h
    exact s.startCommit_moves k x gen ctx socket ok
  | stopCancelling x ctx =>
    cases h
    exact .done fun y ↦ .refl _
  | stopping x gen done =>
    simp only [Session.advance] at h
    split at h
    · cases h
      exact .done fun y ↦ s.stopFinish_calm x y gen
    · cases h
  | closing conn dones =>
    cases h
    exact .done fun y ↦ (s.closeConn_streams conn).1 ▸ .refl _
  | waiting dones =>
    simp only [Session.advance] at h
    split at h
    · cases h
      exact .done fun y ↦ .refl _
    · cases h

/-! ### What a section shows -/

namespace Server

open Connecting Session

/-- A section that changes nothing that is published about the connection and the streams. -/
def Shows (s t : Server) : Prop :=
  t.connected = s.connected ∧ ∀ x, (t.stream x).active = (s.stream x).active

theorem Shows.of_eq {s t : Server} (h : t.stream = s.stream ∧ t.connected = s.connected) :
    Shows s t :=
  ⟨h.2, fun _ ↦ h.1 ▸ rfl⟩

theorem Shows.refl (s : Server) : Shows s s :=
  ⟨rfl, fun _ ↦ rfl⟩

theorem Shows.trans {s t u : Server} (h : Shows s t) (h' : Shows t u) : Shows s u :=
  ⟨h'.1.trans h.1, fun x ↦ (h'.2 x).trans (h.2 x)⟩

variable (s : Server) (k : ConnId) (x y : StreamId)

theorem Shows.setStream {c : StreamController} (h : c.active = (s.stream x).active) :
    Shows s (s.setStream x c) :=
  ⟨rfl, fun y ↦ setStream_rel (R := fun c d ↦ d.active = c.active) s x y (fun _ ↦ rfl) h⟩

theorem startDial_shows : Shows s (s.startDial x).1 := by
  refine ⟨(s.startDial_streams x).1, fun y ↦ ?_⟩
  rcases (s.startDial_streams x).2 with ⟨hs, -⟩ | htakes
  · rw [hs]
  · obtain rfl | hy := eq_or_ne y x
    · exact htakes.active
    · rw [htakes.other y hy]

theorem startEnter_shows : Shows s (s.startEnter x).1 := by
  simp only [startEnter]
  split_ifs
  · exact .refl s
  · exact .refl s
  · exact (Shows.setStream
      (c := { s.stream x with cancel := none, gen := (s.stream x).gen + 1 }) s x
      rfl).trans (.of_eq (closeConnStream_streams ..))
  · exact s.startDial_shows x

theorem startResume_shows (conn : Option ConnId) (waitGen : ℕ) :
    Shows s (s.startResume x conn waitGen).1 := by
  simp only [startResume]
  split_ifs
  · exact .refl s
  · exact (Shows.setStream (c := { s.stream x with done := none, running := false }) s x rfl).trans
      (startDial_shows _ x)

/-- A start that gives an inactive stream up. -/
theorem startAbort_shows {gen : ℕ} (h : (s.stream x).gen = gen → (s.stream x).active = false) :
    Shows s (s.startAbort x gen) := by
  simp only [startAbort]
  split
  · exact .setStream s x (h ‹_›).symm
  · exact .refl s

/-- The sections of a call of `ToggleStream` keep the connection. -/
theorem toggling_connected {ok : Bool} {p : Session.Phase} {r : Server × Session.Phase}
    (h : Session.advance s ok p = some r) : r.1.connected = s.connected := by
  cases p with
  | idle | returned outcome => cases h
  | joining x conn waitGen done =>
    simp only [Session.advance] at h
    split at h
    · cases h
      exact (s.startResume_shows x conn waitGen).1
    · cases h
  | dialing x k gen ctx =>
    simp only [Session.advance] at h
    split at h <;> cases h <;> rfl
  | dialFailed x k gen =>
    cases h
    simp only [startDialFailed, startAbort]
    split_ifs <;> rfl
  | dialed x k gen ctx socket =>
    cases h
    rw [startCommit.eq_def]
    split
    · split
      · exact (s.startLaunch_streams k x gen ctx ok).1
      · rename_i c
        have hs := (s.installStream_streams k x c).2
        split <;> rename_i t hi
        all_goals rw [hi] at hs
        · exact (t.startLaunch_streams k x gen ctx ok).1.trans hs
        · simp only [startAbort]
          split_ifs <;> exact hs
    · simp only [startAbort]
      split_ifs <;> rfl
  | stopCancelling x ctx =>
    cases h
    rfl
  | stopping x gen done =>
    simp only [Session.advance] at h
    split at h
    · cases h
      simp only [stopFinish]
      split_ifs <;> rfl
    · cases h
  | closing conn dones =>
    cases h
    exact (s.closeConn_streams conn).2
  | waiting dones =>
    simp only [Session.advance] at h
    split at h <;> cases h
    rfl

theorem stopEnter_connected (ok : Bool) : (s.stopEnter x ok).1.connected = s.connected := by
  simp only [stopEnter]
  split_ifs
  · rfl
  · rfl
  · rw [(closeConnStream_streams ..).2]
    exact endScreenSession_connected _ ok
  · rw [(closeConnStream_streams ..).2]
    rfl

theorem workerCleanup_connected (v : Worker) : (s.workerCleanup v).connected = s.connected := by
  rw [workerCleanup]
  split
  · split <;> rfl
  · rfl

theorem workerStep_connected {t : Server} {w : WorkerId} {ok : Bool}
    (h : s.workerStep w ok = some t) : t.connected = s.connected := by
  simp only [workerStep] at h
  split at h
  · cases h
  · split at h <;> cases h
    case h_3 => exact (s.closeScreenControl_streams ..).2
    case h_5 => exact s.workerCleanup_connected (s.worker w)
    all_goals rfl

end Server

end AllRelay
