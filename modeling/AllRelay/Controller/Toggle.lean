import AllRelay.Controller.SessionLanes

/-!
# The life of a stream

The results about `ToggleStream` over every run of a session, under any interleaving with other
calls, worker exits and `Disconnect`.
-/

open LabelledSystem

namespace AllRelay.Session

variable {k : ConnId} {s t u : State} {c : CallId} {x : StreamId}

/-! ### The start of a session -/

/-- A stream that was never started in the session. -/
theorem laneInv_idle {l : Lane} (hactive : l.sc.active = false) (hrun : l.sc.running = false)
    (hslot : l.slot = none) (hlive : ∀ w, l.live w = none) (hclaim : ∀ c, l.claim c = none) :
    LaneInv l where
  unique v _ a _ hv := nomatch (hlive v).symm.trans hv
  done _ w _ hw := nomatch (hlive w).symm.trans hw
  active ha := nomatch hactive.symm.trans ha
  slot _ hs := by
    rw [hslot] at hs
    cases hs
  cleanup _ _ _ _ _ := hslot
  exit w _ hw := nomatch (hlive w).symm.trans hw
  alive _ w _ hw := nomatch (hlive w).symm.trans hw
  running hr := nomatch hrun.symm.trans hr
  taken c _ hc := nomatch (hclaim c).symm.trans hc
  distinct c _ _ _ hc := nomatch (hclaim c).symm.trans hc
  stale _ c _ hc := nomatch (hclaim c).symm.trans hc
  latest _ c _ hc := nomatch (hclaim c).symm.trans hc
  dial c _ hc := nomatch (hclaim c).symm.trans hc

/-- A stream whose worker was launched with the session. -/
theorem laneInv_launched {l : Lane} {w : WorkerId} {a : Worker}
    (hlive : ∀ v b, l.live v = some b ↔ v = w ∧ b = a) (hconn : l.conn = some a.conn)
    (hactive : l.sc.active = true) (hrun : l.sc.running = true) (hdone : l.sc.done = some w)
    (hgen : a.gen = l.sc.gen) (hstream : a.stream ≠ .screen) (hphase : a.phase = .running)
    (hsocket : a.socket.isSome) (hslot : l.slot = a.socket) (hclaim : ∀ c, l.claim c = none) :
    LaneInv l where
  unique v u a b hv hu := ((hlive v a).1 hv).1.trans ((hlive u b).1 hu).1.symm
  done _ v b hv := hdone.trans (congrArg some ((hlive v b).1 hv).1.symm)
  active _ := ⟨hrun, w, a, (hlive w a).2 ⟨rfl, rfl⟩, hconn, hgen, fun h ↦ absurd h hstream,
    by rw [hphase]; rfl, fun _ ↦ ⟨hsocket, hslot⟩⟩
  slot _ _ := hactive
  cleanup v b hv hx := absurd (((hlive v b).1 hv).2 ▸ hx) hstream
  exit v b hv hp := by
    rw [((hlive v b).1 hv).2, hphase] at hp
    cases hp
  alive _ _ _ _ _ := hrun
  running _ := .inl hactive
  taken c _ hc := nomatch (hclaim c).symm.trans hc
  distinct c _ _ _ hc := nomatch (hclaim c).symm.trans hc
  stale _ c _ hc := nomatch (hclaim c).symm.trans hc
  latest _ c _ hc := nomatch (hclaim c).symm.trans hc
  dial c _ hc := nomatch (hclaim c).symm.trans hc

/-- The commit of `Connect` to an idle controller: the speaker worker runs, and nothing else
does. -/
theorem connectCommit_of_idle {s₀ : Server} {gen : ℕ} {ctx : CtxId} {socket : SocketId}
    (hmay : s₀.mayConnect gen ctx = true)
    (hslot : s₀.connection k = ⟨false, fun x ↦ if x = .speaker then some socket else none⟩) :
    s₀.connectCommit gen ctx k =
      (({ s₀ with connectCancel := none, conn := some k, connected := true } :
        Server).withCancel.setStream .speaker
          { s₀.stream .speaker with
            running := true, active := true, gen := (s₀.stream .speaker).gen + 1
            cancel := some s₀.nextCtx, done := some s₀.nextWorker }).addWorker .speaker k s₀.nextCtx
              ((s₀.stream .speaker).gen + 1) 0 := by
  have hhas : s₀.hasStream k .speaker = true := by
    rw [Server.hasStream, hslot]
    rfl
  rw [Server.connectCommit, if_pos hmay]
  exact if_pos hhas

/-- A session starts in the invariant. -/
theorem Starts.inv (h : Starts s) : ∃ k, SessionInv k s := by
  obtain ⟨⟨s₀, gen, ctx, k, socket, hidle, hmay, hslot, hs⟩, hcall⟩ := h
  rw [connectCommit_of_idle hmay hslot] at hs
  have hnoclaim (y : StreamId) (c : CallId) : s.claim y c = none := by
    rw [State.claim, hcall]
    rfl
  have hnone (y : StreamId) (w : WorkerId) : s₀.liveOn y w = none :=
    if_neg fun hw ↦ hidle.worker w hw.1
  refine ⟨k, ⟨?_, fun c ↦ ?_, fun c _ _ hc ↦ ?_, ?_, fun y hy ↦ ?_⟩⟩
  · rw [hs]
    refine ⟨rfl, fun j hj ↦ (Option.some.inj hj).symm, fun _ ↦ congrArg Connection.closed hslot,
      fun w hw ↦ ?_⟩
    obtain ⟨-, heq⟩ | ⟨hl, -⟩ := Server.live_addWorker hw
    · rw [heq]
      exact ⟨rfl, by rintro ⟨⟩⟩
    · exact absurd hl (hidle.worker w)
  · rw [hcall]
    trivial
  · rw [hcall] at hc
    cases hc
  · obtain ⟨gen', hgen⟩ := hidle.stream .control
    rw [hs]
    exact congrArg StreamController.active hgen
  · rw [State.lane, hs]
    obtain rfl | hne := eq_or_ne y .speaker
    · rw [Server.lane_addWorker_self, Server.lane_setStream_self]
      refine laneInv_launched (w := s₀.nextWorker) (a := ⟨.speaker, k, s₀.nextCtx,
        (s₀.stream .speaker).gen + 1, 0, some socket, .running⟩) (fun v b ↦ ?_) rfl rfl rfl rfl rfl
        (by rintro ⟨⟩) rfl rfl (congrArg (Connection.slot · .speaker) hslot) (hnoclaim .speaker)
      have hsock : (s₀.connection k).slot .speaker = some socket :=
        congrArg (Connection.slot · .speaker) hslot
      simp only [Function.update_apply, Server.setStream, Server.withCancel, hsock]
      split
      · rename_i hv
        rw [Option.some.injEq, eq_comm]
        exact ⟨fun hb ↦ ⟨hv, hb⟩, And.right⟩
      · rename_i hv
        refine iff_of_false (fun hb ↦ ?_) fun h ↦ hv h.1
        cases (hnone .speaker v).symm.trans hb
    · rw [Server.lane_addWorker_of_ne _ _ _ hne, Server.lane_setStream_of_ne _ _ _ _ _ hne]
      obtain ⟨gen', hgen⟩ := hidle.stream y
      refine laneInv_idle ?_ ?_ ?_ (hnone y) (hnoclaim y)
      · exact congrArg StreamController.active hgen
      · exact congrArg StreamController.running hgen
      · exact (congrArg (Connection.slot · y) hslot).trans (if_neg hne)

/-! ### Every section but a commit is quiet -/

/-- A start that fails its check launches nothing. -/
theorem startCommit_of_not_mayStart {s : Server} {gen : ℕ} {ctx : CtxId}
    {socket : Option SocketId} (ok : Bool) (h : ¬s.mayStart x k gen ctx = true) :
    s.startCommit x k gen ctx socket ok =
      (((s.cancel (some ctx)).closeSocket socket).startAbort x gen,
        .returned (.startFailed socket)) :=
  if_neg h

/-- Every section of a call is quiet, but for the commit of a start. -/
theorem advance_quiet {s : Server} {p : Phase} {ok : Bool} {r : Server × Phase}
    (h : advance s ok p = some r) :
    s.Quiet r.1 ∨ ∃ x k gen ctx socket, p = .dialed x k gen ctx socket ∧
      s.mayStart x k gen ctx = true := by
  rcases p with
    _ | ⟨x, conn, waitGen, done⟩ | ⟨x, j, gen, ctx⟩ | ⟨x, j, gen⟩ | ⟨x, j, gen, ctx, socket⟩ |
    ⟨x, ctx⟩ | ⟨x, gen, done⟩ | ⟨conn, dones⟩ | dones | outcome
  all_goals rw [advance] at h
  case idle => cases h
  case joining =>
    split at h <;> cases h
    exact .inl (Server.Frame.startResume ..).toQuiet
  case dialing =>
    split at h <;> cases h
    · exact .inl (Server.Frame.dialSocket s).toQuiet
    · exact .inl (Server.Frame.cancelCtx ..).toQuiet
  case dialFailed =>
    cases h
    exact .inl (Server.Frame.startDialFailed ..).toQuiet
  case dialed =>
    cases h
    by_cases hmay : s.mayStart x j gen ctx = true
    · exact .inr ⟨x, j, gen, ctx, socket, rfl, hmay⟩
    · left
      rw [startCommit_of_not_mayStart ok hmay]
      exact (((Server.Frame.cancelCtx ..).trans (Server.Frame.closeSocket ..)).trans
        (Server.Frame.startAbort ..)).toQuiet
  case stopCancelling =>
    cases h
    exact .inl (Server.Frame.cancelCtx ..).toQuiet
  case stopping =>
    split at h <;> cases h
    exact .inl (Server.Frame.stopFinish ..).toQuiet
  case closing =>
    cases h
    exact .inl (Server.Quiet.closeConn ..)
  case waiting =>
    split at h <;> cases h
    exact .inl (Server.Quiet.refl s)
  case returned => cases h

/-- **What a step can do.** It is quiet, or the commit of a start of the latest generation. -/
theorem step_cases {e : Event} (h : step s e = some t) :
    s.server.Quiet t.server ∨ ∃ d ok x k gen ctx socket, e = .advance d ok ∧
      s.call d = .dialed x k gen ctx socket ∧ s.server.mayStart x k gen ctx = true ∧
      t = s.put d (s.server.startCommit x k gen ctx socket ok) := by
  rcases e with ⟨c, x⟩ | ⟨c, x, ok⟩ | ⟨c, ok⟩ | ⟨c, ok⟩ | ⟨w, ok⟩
  all_goals rw [step] at h
  case start =>
    split at h
    · cases h
    split at h <;> cases h
    · exact .inl (Server.Quiet.refl _)
    · exact .inl (Server.Frame.startEnter ..).toQuiet
  case stop =>
    split at h
    · cases h
    split at h <;> cases h
    · exact .inl (Server.Quiet.refl _)
    · exact .inl (Server.Frame.stopEnter ..).toQuiet
  case disconnect =>
    split at h <;> cases h
    have hq := Server.Quiet.disconnectLocked s.server ok
    left
    rw [State.put, Server.disconnectEnter]
    split <;> rename_i heq <;> rw [heq] at hq <;> exact hq
  case advance =>
    obtain ⟨r, hr, rfl⟩ := Option.map_eq_some_iff.1 h
    obtain hq | ⟨x, k, gen, ctx, socket, hp, hmay⟩ := advance_quiet hr
    · exact .inl hq
    · rw [hp, advance, Option.some.injEq] at hr
      exact .inr ⟨c, ok, x, k, gen, ctx, socket, rfl, hp, hmay, by rw [hr]⟩
  case worker =>
    obtain ⟨t, ht, rfl⟩ := Option.map_eq_some_iff.1 h
    exact .inl (Server.Frame.workerStep ht).toQuiet

/-- What a commit leaves alone: the generations, the closed sockets and the other streams. -/
theorem SessionInv.startCommit_spec (hi : SessionInv k s) {j : ConnId} {gen : ℕ} {ctx : CtxId}
    {socket : Option SocketId} (ok : Bool) (hc : s.call c = .dialed x j gen ctx socket)
    (hmay : s.server.mayStart x j gen ctx = true) :
    ∃ u, s.server.startCommit x j gen ctx socket ok = (u, .returned (.started socket)) ∧
      u.nextSocket = s.server.nextSocket ∧
      (∀ i, s.server.socketClosed i = true → u.socketClosed i = true) ∧
      (∀ y, (u.stream y).gen = (s.server.stream y).gen) ∧
      ∀ y, y ≠ x → ∀ claim, u.lane k y claim = s.server.lane k y claim := by
  obtain ⟨hx, rfl, hsome⟩ : x ≠ .control ∧ j = k ∧ socket.isSome := by
    have := hi.phase c
    rwa [hc] at this
  obtain ⟨socket, rfl⟩ := Option.isSome_iff_exists.1 hsome
  have hcheck := hmay
  rw [Server.mayStart, decide_eq_true_eq] at hcheck
  obtain ⟨-, hconn, -, -⟩ := hcheck
  obtain ⟨t, ht, hinstalls, -, hself, hlane⟩ :=
    s.server.installStream_spec j x (hi.shared.opened hconn) socket
  obtain ⟨a, hubGen, -, -, -, -, -, -, hcommit, hsame⟩ := t.startLaunch_spec j x gen ctx ok
  have hsockets : (t.startLaunch x j gen ctx ok).nextSocket = t.nextSocket ∧
      (t.startLaunch x j gen ctx ok).socketClosed = t.socketClosed := by
    rw [Server.startLaunch]
    obtain rfl | hscreen := eq_or_ne x .screen
    · exact ⟨rfl, rfl⟩
    · rw [Server.launchWorker_of_ne _ hscreen]
      exact ⟨rfl, rfl⟩
  have hother (y : StreamId) (hy : y ≠ x) (claim : CallId → Option Claim) :
      (t.startLaunch x j gen ctx ok).lane j y claim = s.server.lane j y claim :=
    (hsame y hy claim).trans (hlane y hy claim)
  refine ⟨t.startLaunch x j gen ctx ok, ?_, hsockets.1.trans hinstalls.nextSocket, fun i h ↦ ?_,
    fun y ↦ ?_, hother⟩
  · rw [Server.startCommit, if_pos hmay]
    simp only [ht]
  · rw [hsockets.2]
    exact hinstalls.socketClosed i h
  · obtain rfl | hy := eq_or_ne y x
    · have h := congrArg Lane.sc (hcommit c fun _ ↦ none)
      have h' : t.stream y = s.server.stream y := congrArg Lane.sc (hself fun _ ↦ none)
      have hgen' : ((t.startLaunch y j gen ctx ok).stream y).gen = (t.stream y).gen :=
        (congrArg StreamController.gen h :)
      rw [hgen', h']
    · exact congrArg (fun l ↦ l.sc.gen) (hother y hy fun _ ↦ none)

/-- Generations and closed sockets along a step. -/
theorem SessionInv.step_mono (hi : SessionInv k s) {e : Event} (h : Session.step s e = some t) :
    s.server.nextSocket ≤ t.server.nextSocket ∧
      (∀ i < s.server.nextSocket, s.server.socketClosed i = true →
        t.server.socketClosed i = true) ∧
      ∀ x, (s.server.stream x).gen ≤ (t.server.stream x).gen := by
  obtain hq | ⟨d, ok, x, j, gen, ctx, socket, -, hc, hmay, rfl⟩ := step_cases h
  · exact ⟨hq.nextSocket, hq.socketClosed, hq.gen⟩
  · obtain ⟨u, hu, hnext, hclosed, hgen, -⟩ := hi.startCommit_spec ok hc hmay
    rw [hu]
    exact ⟨Nat.le_of_eq hnext.symm, fun i _ ↦ hclosed i, fun y ↦ Nat.le_of_eq (hgen y).symm⟩

/-! ### Superseded starts -/

/-- The socket that a start has dialed. -/
def Phase.socket : Phase → Option SocketId
  | .dialed _ _ _ _ socket => socket
  | .returned (.startFailed socket) => socket
  | _ => none

/-- The call has returned an error, and the socket that it dialed is closed. -/
def Failed (s : State) (c : CallId) : Prop :=
  ∃ socket, s.call c = .returned (.startFailed socket) ∧
    ∀ i, socket = some i → s.server.socketClosed i = true

/-- A start of `x` that has not returned. -/
def Pending (s : State) (c : CallId) (x : StreamId) : Prop :=
  ∃ q, s.claim x c = some q ∧ q.kind ≠ .stop

/-- A start of `x` whose generation is not the latest. -/
def Superseded (s : State) (c : CallId) (x : StreamId) : Prop :=
  ∃ q, s.claim x c = some q ∧ q.kind ≠ .stop ∧ q.gen < (s.server.stream x).gen

/-- A call moves only by its own events. -/
theorem call_step {e : Event} (h : step s e = some t) (c : CallId) :
    (∃ ok, e = .advance c ok) ∨ s.call c = .idle ∨ t.call c = s.call c := by
  have hput {d : CallId} {r : Server × Phase} (hd : c ≠ d) : (s.put d r).call c = s.call c :=
    Function.update_of_ne hd ..
  rcases e with ⟨d, x⟩ | ⟨d, x, ok⟩ | ⟨d, ok⟩ | ⟨d, ok⟩ | ⟨w, ok⟩
  all_goals rw [step] at h
  case start =>
    split at h
    · cases h
    rename_i hd
    obtain rfl | hcd := eq_or_ne c d
    · exact .inr (.inl (not_not.1 hd))
    · split at h <;> cases h <;> exact .inr (.inr (hput hcd))
  case stop =>
    split at h
    · cases h
    rename_i hd
    obtain rfl | hcd := eq_or_ne c d
    · exact .inr (.inl (not_not.1 hd))
    · split at h <;> cases h <;> exact .inr (.inr (hput hcd))
  case disconnect =>
    split at h <;> cases h
    rename_i hd
    obtain rfl | hcd := eq_or_ne c d
    · exact .inr (.inl (not_not.1 hd))
    · exact .inr (.inr (hput hcd))
  case advance =>
    obtain ⟨r, -, rfl⟩ := Option.map_eq_some_iff.1 h
    obtain rfl | hcd := eq_or_ne c d
    · exact .inl ⟨ok, rfl⟩
    · exact .inr (.inr (hput hcd))
  case worker =>
    obtain ⟨t, -, rfl⟩ := Option.map_eq_some_iff.1 h
    exact .inr (.inr rfl)

/-- The sockets of the starts are allocated. -/
def SocketInv (s : State) : Prop :=
  ∀ c i, (s.call c).socket = some i → i < s.server.nextSocket

theorem startDial_socket (s : Server) (x : StreamId) : (s.startDial x).2.socket = none := by
  rw [Server.startDial]
  split
  · rfl
  · simp only
    split <;> rfl

/-- A section hands on the socket of its call, or none, or the one that it dialed. -/
theorem advance_socket {s : Server} {p : Phase} {ok : Bool} {r : Server × Phase}
    (h : advance s ok p = some r) :
    r.2.socket = p.socket ∨ r.2.socket = none ∨
      (r.2.socket = some s.nextSocket ∧ r.1.nextSocket = s.nextSocket + 1) := by
  rcases p with
    _ | ⟨x, conn, waitGen, done⟩ | ⟨x, j, gen, ctx⟩ | ⟨x, j, gen⟩ | ⟨x, j, gen, ctx, socket⟩ |
    ⟨x, ctx⟩ | ⟨x, gen, done⟩ | ⟨conn, dones⟩ | dones | outcome
  all_goals rw [advance] at h
  case idle => cases h
  case joining =>
    split at h <;> cases h
    right; left
    rw [Server.startResume]
    split
    · rfl
    · exact startDial_socket _ x
  case dialing =>
    split at h <;> cases h
    · exact .inr (.inr ⟨rfl, rfl⟩)
    · exact .inl rfl
  case dialed =>
    cases h
    unfold Server.startCommit
    split
    · split
      · exact .inr (.inl rfl)
      · split
        · exact .inr (.inl rfl)
        · exact .inl rfl
    · exact .inl rfl
  case stopping => split at h <;> cases h; exact .inl rfl
  case waiting => split at h <;> cases h; exact .inl rfl
  case returned => cases h
  all_goals cases h; exact .inl rfl

theorem startEnter_socket (s : Server) (x : StreamId) : (s.startEnter x).2.socket = none := by
  rw [Server.startEnter]
  split
  · rfl
  simp only
  split
  · rfl
  split
  · rfl
  · exact startDial_socket s x

theorem stopEnter_socket (s : Server) (x : StreamId) (ok : Bool) :
    (s.stopEnter x ok).2.socket = none := by
  rw [Server.stopEnter]
  split
  · rfl
  simp only
  split <;> rfl

/-- The socket of a call after a step is the one it had, or was dialed by the step. -/
theorem socket_step {e : Event} (hs : step s e = some t) {c : CallId} {i : SocketId}
    (hc : (t.call c).socket = some i) : (s.call c).socket = some i ∨
      (i = s.server.nextSocket ∧ t.server.nextSocket = s.server.nextSocket + 1) := by
  have hput {d : CallId} {r : Server × Phase}
      (hr : r.2.socket = some i → (s.call d).socket = some i ∨
        (i = s.server.nextSocket ∧ r.1.nextSocket = s.server.nextSocket + 1))
      (hc : ((s.put d r).call c).socket = some i) : (s.call c).socket = some i ∨
        (i = s.server.nextSocket ∧ (s.put d r).server.nextSocket = s.server.nextSocket + 1) := by
    simp only [State.put, Function.update_apply] at hc ⊢
    split at hc
    · rename_i hd
      exact hd ▸ hr hc
    · exact .inl hc
  have hnone {p : Phase} {q : Prop} (hp : p.socket = none) (h : p.socket = some i) : q := by
    cases hp.symm.trans h
  rcases e with ⟨d, x⟩ | ⟨d, x, ok⟩ | ⟨d, ok⟩ | ⟨d, ok⟩ | ⟨w, ok⟩
  all_goals rw [step] at hs
  case start =>
    split at hs
    · cases hs
    split at hs <;> cases hs
    · exact hput (hnone rfl) hc
    · exact hput (hnone (startEnter_socket ..)) hc
  case stop =>
    split at hs
    · cases hs
    split at hs <;> cases hs
    · exact hput (hnone rfl) hc
    · exact hput (hnone (stopEnter_socket ..)) hc
  case disconnect =>
    split at hs <;> cases hs
    refine hput (hnone ?_) hc
    rw [Server.disconnectEnter]
    split <;> rfl
  case advance =>
    obtain ⟨r, hr, rfl⟩ := Option.map_eq_some_iff.1 hs
    refine hput (fun hi ↦ ?_) hc
    obtain hsame | hnone' | ⟨hnew, hnext⟩ := advance_socket hr
    · exact .inl (hsame.symm.trans hi)
    · cases hnone'.symm.trans hi
    · exact .inr ⟨Option.some.inj (hi.symm.trans hnew), hnext⟩
  case worker =>
    obtain ⟨t, -, rfl⟩ := Option.map_eq_some_iff.1 hs
    exact .inl hc

/-- Every step keeps the sockets of the starts allocated. -/
theorem SocketInv.step (h : SocketInv s) (hi : SessionInv k s) {e : Event}
    (hs : Session.step s e = some t) : SocketInv t := by
  intro c i hc
  obtain hold | ⟨rfl, hnext⟩ := socket_step hs hc
  · exact Nat.lt_of_lt_of_le (h c i hold) (hi.step_mono hs).1
  · rw [hnext]
    exact Nat.lt_succ_self _

/-- The phases of a start that has not returned. -/
theorem Phase.claim_start {p : Phase} {q : Claim} (h : p.claim x = some q) (hk : q.kind ≠ .stop) :
    (∃ conn, p = .joining x conn q.gen q.done) ∨ (∃ j ctx, p = .dialing x j q.gen ctx) ∨
      (∃ j, p = .dialFailed x j q.gen) ∨ ∃ j ctx socket, p = .dialed x j q.gen ctx socket := by
  rcases p with
    _ | ⟨y, conn, waitGen, done⟩ | ⟨y, j, gen, ctx⟩ | ⟨y, j, gen⟩ | ⟨y, j, gen, ctx, socket⟩ |
    ⟨y, ctx⟩ | ⟨y, gen, done⟩ | ⟨conn, dones⟩ | dones | outcome
  all_goals simp only [Phase.claim, Option.ite_none_right_eq_some, Option.some.injEq] at h
  case joining =>
    obtain ⟨rfl, rfl⟩ := h
    exact .inl ⟨conn, rfl⟩
  case dialing =>
    obtain ⟨rfl, rfl⟩ := h
    exact .inr (.inl ⟨j, ctx, rfl⟩)
  case dialFailed =>
    obtain ⟨rfl, rfl⟩ := h
    exact .inr (.inr (.inl ⟨j, rfl⟩))
  case dialed =>
    obtain ⟨rfl, rfl⟩ := h
    exact .inr (.inr (.inr ⟨j, ctx, socket, rfl⟩))
  case stopping =>
    obtain ⟨rfl, rfl⟩ := h
    exact absurd rfl hk
  all_goals cases h

/-- The next section of a superseded start: it goes on with its dial, or fails. -/
theorem Superseded.advance (h : Superseded s c x) {ok : Bool} {r : Server × Phase}
    (hr : Session.advance s.server ok (s.call c) = some r) :
    Superseded (s.put c r) c x ∨ Failed (s.put c r) c := by
  obtain ⟨q, hq, hk, hlt⟩ := h
  have hput : (s.put c r).call c = r.2 := Function.update_self ..
  have hfailed {socket : Option SocketId} (hp : r.2 = .returned (.startFailed socket))
      (hcl : ∀ i, socket = some i → r.1.socketClosed i = true) : Failed (s.put c r) c :=
    ⟨socket, hput.trans hp, hcl⟩
  obtain ⟨conn, hc⟩ | ⟨j, ctx, hc⟩ | ⟨j, hc⟩ | ⟨j, ctx, socket, hc⟩ := Phase.claim_start hq hk <;>
    rw [hc, Session.advance] at hr
  · -- the wait is over, but the generation is taken
    split at hr <;> cases hr
    right
    rw [Server.startResume, if_pos (.inr (.inr (Nat.ne_of_gt hlt)))]
    exact ⟨none, Function.update_self .., fun _ h ↦ by cases h⟩
  · left
    split at hr <;> cases hr
    all_goals
      exact ⟨⟨.dial, q.gen, none⟩, by rw [State.claim, hput]; exact if_pos rfl, by rintro ⟨⟩, hlt⟩
  · cases hr
    exact .inr (hfailed rfl fun _ h ↦ by cases h)
  · -- the commit section closes the socket
    have hmay : ¬s.server.mayStart x j q.gen ctx = true := by
      rw [Server.mayStart, decide_eq_true_eq]
      exact fun h ↦ Nat.ne_of_gt hlt h.2.2.1
    rw [startCommit_of_not_mayStart ok hmay] at hr
    cases hr
    refine .inr (hfailed rfl fun i hi ↦ ?_)
    rw [Server.startAbort]
    split <;> simp [Server.setStream, Server.closeSocket, hi]

/-- **A superseded start stays superseded** until it fails. -/
theorem Superseded.step (h : Superseded s c x ∨ Failed s c) (hi : SessionInv k s)
    (hsock : SocketInv s) {e : Event} (hs : Session.step s e = some t) :
    Superseded t c x ∨ Failed t c := by
  obtain ⟨-, hclosed, hgen⟩ := hi.step_mono hs
  obtain ⟨q, hq, hk, hlt⟩ | ⟨socket, hc, hcl⟩ := h
  · obtain ⟨ok, rfl⟩ | hidle | hsame := call_step hs c
    · -- the call's own section finds the generation taken
      rw [Session.step] at hs
      obtain ⟨r, hr, rfl⟩ := Option.map_eq_some_iff.1 hs
      exact Superseded.advance ⟨q, hq, hk, hlt⟩ hr
    · rw [State.claim, hidle] at hq
      cases hq
    · left
      exact ⟨q, by rw [State.claim, hsame]; exact hq, hk, Nat.lt_of_lt_of_le hlt (hgen x)⟩
  · right
    obtain ⟨ok, rfl⟩ | hidle | hsame := call_step hs c
    · rw [Session.step, hc] at hs
      cases hs
    · rw [hc] at hidle
      cases hidle
    · exact ⟨socket, hsame.trans hc, fun i hsome ↦
        hclosed i (hsock c i (by rw [hc]; exact hsome)) (hcl i hsome)⟩

/-- The events that take a stream away from a pending start: another ON, an OFF or a `Disconnect`
enters. -/
def Supersedes (e : Event) (x : StreamId) : Prop :=
  (∃ d, e = .start d x) ∨ (∃ d ok, e = .stop d x ok) ∨ ∃ d ok, e = .disconnect d ok

theorem startDial_gen {s : Server} (hconn : s.conn = some k) :
    ((s.startDial x).1.stream x).gen = (s.stream x).gen + 1 := by
  have hset (t : Server) (c : StreamController) : (t.setStream x c).stream x = c := by
    rw [Server.setStream_stream, if_pos rfl]
  rw [Server.startDial, hconn]
  simp only
  split
  · exact congrArg StreamController.gen (hset ..)
  · exact congrArg StreamController.gen (hset ..)

theorem startEnter_gen {s : Server} (hconnected : s.connected = true) (hconn : s.conn = some k)
    (hidle : ¬((s.stream x).running = true ∧ (s.stream x).active = true)) :
    ((s.startEnter x).1.stream x).gen = (s.stream x).gen + 1 := by
  rw [Server.startEnter, if_neg (by rw [hconnected]; decide)]
  simp only
  rw [if_neg hidle]
  split
  · rw [hconn]
    have hset (t : Server) (c : StreamController) : (t.setStream x c).stream x = c := by
      rw [Server.setStream_stream, if_pos rfl]
    exact congrArg StreamController.gen (hset ..)
  · exact startDial_gen hconn

theorem disconnectEnter_conn {s : Server} (hconnected : s.connected = true) (ok : Bool) :
    (s.disconnectEnter ok).1.conn = none := by
  have h : s.abortConnect.connected = true :=
    (Server.Frame.abortConnect s).connected.trans hconnected
  rw [Server.disconnectEnter, Server.disconnectLocked, if_pos h]
  rfl

theorem Pending.ne_control (h : Pending s c x) (hi : SessionInv k s) : x ≠ .control := by
  obtain ⟨q, hq, hk⟩ := h
  have hon := hi.phase c
  obtain ⟨conn, hc⟩ | ⟨j, ctx, hc⟩ | ⟨j, hc⟩ | ⟨j, ctx, socket, hc⟩ := Phase.claim_start hq hk <;>
    rw [hc] at hon
  · exact hon.1
  · exact hon.1
  · exact hon.1
  · exact hon.1

/-- **A later ON, OFF or `Disconnect` supersedes a pending start.** -/
theorem Pending.superseded (h : Pending s c x) (hi : SessionInv k s) {e : Event}
    (he : Supersedes e x) (hs : step s e = some t) : Superseded t c x := by
  have hx := h.ne_control hi
  obtain ⟨q, hq, hk⟩ := h
  have hsame : t.call c = s.call c := by
    obtain ⟨ok, rfl⟩ | hidle | hsame := call_step hs c
    · obtain ⟨d, he⟩ | ⟨d, ok', he⟩ | ⟨d, ok', he⟩ := he <;> cases he
    · rw [State.claim, hidle] at hq
      cases hq
    · exact hsame
  refine ⟨q, by rw [State.claim, hsame]; exact hq, hk, ?_⟩
  have hle := (hi.lane x hx).taken c q hq
  have hmono := (hi.step_mono hs).2.2 x
  have hit := hi.step hs
  by_cases hd : s.server.connected = true
  · have hconn := hi.shared.conn_eq hd
    have hsome : (s.lane k x).conn.isSome := by
      rw [State.lane, Server.lane, hconn]
      rfl
    obtain ⟨d, rfl⟩ | ⟨d, ok, rfl⟩ | ⟨d, ok, rfl⟩ := he <;> rw [step] at hs
    · split at hs
      · cases hs
      cases hs
      by_cases hrun : (s.server.stream x).running = true ∧ (s.server.stream x).active = true
      · -- the stream is active, so the generation of the pending start is not the latest
        have hne : q.gen ≠ (s.server.stream x).gen := fun hg ↦
          by cases ((hi.lane x hx).latest hsome c q hq hg).2.1.symm.trans hrun.2
        exact Nat.lt_of_lt_of_le (Nat.lt_of_le_of_ne hle hne) hmono
      · exact Nat.lt_of_lt_of_eq (Nat.lt_succ_of_le hle) (startEnter_gen hd hconn hrun).symm
    · split at hs
      · cases hs
      cases hs
      obtain ⟨⟨q', cancel, hubGen, hself, -⟩, -⟩ := hi.stopEnter_spec (c := d) ok hx hd
      have hgen : ((s.server.stopEnter x ok).1.stream x).gen = (s.server.stream x).gen + 1 :=
        (congrArg (fun l : Lane ↦ l.sc.gen) hself :)
      exact Nat.lt_of_lt_of_eq (Nat.lt_succ_of_le hle) hgen.symm
    · split at hs <;> cases hs
      -- the connection is gone, so every claim is stale
      have hstale := (hit.lane x hx).stale (disconnectEnter_conn hd ok) c q
      exact hstale (by rw [← hq]; exact congrArg (Phase.claim x) hsame)
  · have hq' : (s.call c).claim x = some q := hq
    have hne := hi.stale_of_not_connected hx (eq_false_of_ne_true hd) hq'
    exact Nat.lt_of_lt_of_le (Nat.lt_of_le_of_ne hle hne) hmono

/-! ### Stopped streams -/

theorem startDial_claim {s : Server} {y : StreamId} {q : Claim}
    (h : (s.startDial y).2.claim x = some q) : y = x := by
  rw [Server.startDial] at h
  split at h
  · cases h
  · simp only at h
    split at h <;> exact (Option.ite_none_right_eq_some.1 h).1

theorem startEnter_claim {s : Server} {y : StreamId} {q : Claim}
    (h : (s.startEnter y).2.claim x = some q) : y = x := by
  rw [Server.startEnter] at h
  split at h
  · cases h
  simp only at h
  split at h
  · cases h
  split at h
  · exact (Option.ite_none_right_eq_some.1 h).1
  · exact startDial_claim h

theorem stopEnter_claim {s : Server} {y : StreamId} {ok : Bool} {q : Claim}
    (h : (s.stopEnter y ok).2.claim x = some q) : q.kind = .stop := by
  rw [Server.stopEnter] at h
  split at h
  · cases h
  simp only at h
  split at h
  · cases h
  · rw [← (Option.some.inj (Option.ite_none_right_eq_some.1 h).2)]

/-- A section of a call that is a start of `x` after it was one before. -/
theorem advance_claim {s : Server} {p : Phase} {ok : Bool} {r : Server × Phase} {q : Claim}
    (h : advance s ok p = some r) (hq : r.2.claim x = some q) :
    ∃ q', p.claim x = some q' ∧ (q'.kind = .stop → q.kind = .stop) := by
  rcases p with
    _ | ⟨y, conn, waitGen, done⟩ | ⟨y, j, gen, ctx⟩ | ⟨y, j, gen⟩ | ⟨y, j, gen, ctx, socket⟩ |
    ⟨y, ctx⟩ | ⟨y, gen, done⟩ | ⟨conn, dones⟩ | dones | outcome
  all_goals rw [advance] at h
  case joining =>
    split at h <;> cases h
    rw [Server.startResume] at hq
    split at hq
    · cases hq
    · obtain rfl := startDial_claim hq
      exact ⟨_, if_pos rfl, by rintro ⟨⟩⟩
  case dialing =>
    split at h <;> cases h <;> obtain ⟨rfl, -⟩ := Option.ite_none_right_eq_some.1 hq
    · exact ⟨_, if_pos rfl, by rintro ⟨⟩⟩
    · exact ⟨_, if_pos rfl, by rintro ⟨⟩⟩
  case dialed =>
    cases h
    unfold Server.startCommit at hq
    split at hq
    · split at hq
      · cases hq
      · split at hq <;> cases hq
    · cases hq
  case stopping => split at h <;> cases h; cases hq
  case waiting => split at h <;> cases h; cases hq
  all_goals cases h
  all_goals cases hq

/-- A pending start was pending before, or has just entered. -/
theorem Pending.of_step {e : Event} (hs : step s e = some t) (h : Pending t c x) :
    Pending s c x ∨ e = .start c x := by
  obtain ⟨q, hq, hk⟩ := h
  obtain ⟨ok, rfl⟩ | hidle | hsame := call_step hs c
  · rw [step] at hs
    obtain ⟨r, hr, rfl⟩ := Option.map_eq_some_iff.1 hs
    rw [claim_put, Function.update_self] at hq
    obtain ⟨q', hq', hkind⟩ := advance_claim hr hq
    exact .inl ⟨q', hq', fun h ↦ hk (hkind h)⟩
  · have hput {d : CallId} {r : Server × Phase} (h : (s.put d r).claim x c = some q) :
        d = c ∧ r.2.claim x = some q := by
      rw [claim_put] at h
      obtain rfl | hcd := eq_or_ne c d
      · exact ⟨rfl, by rwa [Function.update_self] at h⟩
      · rw [Function.update_of_ne hcd, State.claim, hidle] at h
        cases h
    rcases e with ⟨d, y⟩ | ⟨d, y, ok⟩ | ⟨d, ok⟩ | ⟨d, ok⟩ | ⟨w, ok⟩
    all_goals rw [step] at hs
    case start =>
      split at hs
      · cases hs
      split at hs <;> cases hs
      · cases (hput hq).2
      · obtain ⟨rfl, hclaim⟩ := hput hq
        rw [startEnter_claim hclaim]
        exact .inr rfl
    case stop =>
      split at hs
      · cases hs
      split at hs <;> cases hs
      · cases (hput hq).2
      · exact absurd (stopEnter_claim (hput hq).2) hk
    case disconnect =>
      split at hs <;> cases hs
      have hclaim := (hput hq).2
      rw [Server.disconnectEnter] at hclaim
      split at hclaim <;> cases hclaim
    case advance =>
      obtain ⟨r, hr, rfl⟩ := Option.map_eq_some_iff.1 hs
      obtain ⟨rfl, -⟩ := hput hq
      rw [hidle] at hr
      cases hr
    case worker =>
      obtain ⟨t, -, rfl⟩ := Option.map_eq_some_iff.1 hs
      rw [State.claim, show (_ : State).call c = s.call c from rfl, hidle] at hq
      cases hq
  · exact .inl ⟨q, by rw [State.claim, ← hsame]; exact hq, hk⟩

/-- A stream after the first section of the OFF call `c`, as long as no ON enters. -/
structure Halted (k : ConnId) (c : CallId) (x : StreamId) (s : State) : Prop where
  /-- The stream is not active. -/
  active : (s.server.stream x).active = false
  /-- Its slot is empty. -/
  slot : (s.server.connection k).slot x = none
  /-- Every pending start has been superseded. -/
  starts : ∀ d, Pending s d x → Superseded s d x
  /-- A live worker is the one that the call waits for. -/
  call : (∃ gen done, s.call c = .stopping x gen done ∧
      ∀ w a, s.server.liveOn x w = some a → done = some w) ∨
    (((∃ ctx, s.call c = .stopCancelling x ctx) ∨ s.call c = .returned .stopped) ∧
      ∀ w, s.server.liveOn x w = none)

/-- A quiet section brings no worker to life. -/
theorem liveOn_of_quiet {s t : Server} (h : s.Quiet t) {w : WorkerId} {a : Worker}
    (hw : t.liveOn x w = some a) : ∃ a', s.liveOn x w = some a' := by
  obtain ⟨hl, rfl, hx⟩ := Server.liveOn_eq_some_iff.1 hw
  obtain ⟨hs, phase, heq⟩ := h.live w hl
  rw [heq] at hx
  exact ⟨_, Server.liveOn_eq_some_iff.2 ⟨hs, rfl, hx⟩⟩

/-- What a step that starts nothing on `x` does to it: nothing is started. -/
theorem Halted.frame (h : Halted k c x s) (hi : SessionInv k s) {e : Event}
    (hs : step s e = some t) : (t.server.stream x).active = false ∧
      (t.server.connection k).slot x = none ∧
      ∀ w a, t.server.liveOn x w = some a → ∃ a', s.server.liveOn x w = some a' := by
  obtain hq | ⟨d, ok, y, j, gen, ctx, socket, -, hc, hmay, rfl⟩ := step_cases hs
  · refine ⟨?_, hq.slot k x h.slot, fun w a hw ↦ liveOn_of_quiet hq hw⟩
    by_contra ha
    cases h.active.symm.trans (hq.active x (eq_true_of_ne_false ha))
  · obtain ⟨u, hu, -, -, -, hother⟩ := hi.startCommit_spec ok hc hmay
    have hxy : x ≠ y := by
      -- every pending start of `x` is superseded, so none passes the check
      rintro rfl
      have hclaim : s.claim x d = some ⟨.dial, gen, none⟩ := by
        rw [State.claim, hc]
        exact if_pos rfl
      obtain ⟨q, hq, -, hlt⟩ := h.starts d ⟨_, hclaim, by rintro ⟨⟩⟩
      rw [hclaim, Option.some.injEq] at hq
      rw [Server.mayStart, decide_eq_true_eq] at hmay
      rw [← hq] at hlt
      exact Nat.ne_of_lt hlt hmay.2.2.1.symm
    have hlane := hother x hxy fun _ ↦ none
    rw [hu]
    refine ⟨?_, ?_, fun w a hw ↦ ⟨a, ?_⟩⟩
    · exact (congrArg (fun l : Lane ↦ l.sc.active) hlane :).trans h.active
    · exact (congrArg Lane.slot hlane :).trans h.slot
    · exact (congrFun (congrArg Lane.live hlane :) w).symm.trans hw

/-- **A stopped stream stays stopped** as long as no ON enters. -/
theorem Halted.step (h : Halted k c x s) (hi : SessionInv k s) (hsock : SocketInv s) {e : Event}
    (he : ∀ d, e ≠ .start d x) (hs : Session.step s e = some t) : Halted k c x t := by
  obtain ⟨hactive, hslot, hlive⟩ := h.frame hi hs
  refine ⟨hactive, hslot, fun d hd ↦ ?_, ?_⟩
  · obtain hd' | rfl := hd.of_step hs
    · obtain hsup | ⟨socket, hfailed, -⟩ := Superseded.step (.inl (h.starts d hd')) hi hsock hs
      · exact hsup
      · obtain ⟨q, hq, -⟩ := hd
        rw [State.claim, hfailed] at hq
        cases hq
    · exact absurd rfl (he d)
  · obtain ⟨ok, rfl⟩ | hidle | hsame := call_step hs c
    · rw [Session.step] at hs
      obtain ⟨r, hr, rfl⟩ := Option.map_eq_some_iff.1 hs
      have hput : (s.put c r).call c = r.2 := Function.update_self ..
      obtain ⟨gen, done, hc, hdone⟩ | ⟨⟨ctx, hc⟩ | hc, hnone⟩ := h.call <;>
        rw [hc, advance] at hr
      · -- the worker that the call waited for has exited
        split at hr <;> cases hr
        rename_i hjoined
        refine .inr ⟨.inr hput, fun w ↦ ?_⟩
        by_contra hw
        obtain ⟨a, ha⟩ := Option.ne_none_iff_exists'.1 hw
        obtain ⟨a', ha'⟩ := hlive w a ha
        cases ha'.symm.trans (Server.liveOn_of_joined hjoined x w (hdone w a' ha'))
      · cases hr
        refine .inr ⟨.inr hput, fun w ↦ ?_⟩
        by_contra hw
        obtain ⟨a, ha⟩ := Option.ne_none_iff_exists'.1 hw
        obtain ⟨a', ha'⟩ := hlive w a ha
        cases ha'.symm.trans (hnone w)
      · cases hr
    · obtain ⟨gen, done, hc, -⟩ | ⟨⟨ctx, hc⟩ | hc, -⟩ := h.call <;> rw [hc] at hidle <;> cases hidle
    · rw [hsame]
      refine h.call.imp ?_ (And.imp_right fun hnone w ↦ ?_)
      · rintro ⟨gen, done, hc, hdone⟩
        refine ⟨gen, done, hc, fun w a hw ↦ ?_⟩
        obtain ⟨a', ha'⟩ := hlive w a hw
        exact hdone w a' ha'
      · by_contra hw
        obtain ⟨a, ha⟩ := Option.ne_none_iff_exists'.1 hw
        obtain ⟨a', ha'⟩ := hlive w a ha
        cases ha'.symm.trans (hnone w)

/-- The first section of OFF stops the stream. -/
theorem halted_of_stop (hi : SessionInv k s) {ok : Bool} (hx : x ≠ .control)
    (hconnected : s.server.connected = true) (hs : step s (.stop c x ok) = some t) :
    Halted k c x t := by
  have hs' := hs
  rw [step] at hs'
  split at hs'
  · cases hs'
  cases hs'
  obtain ⟨⟨q, cancel, hubGen, hself, hq⟩, -⟩ := hi.stopEnter_spec (c := c) ok hx hconnected
  have hsome : (s.lane k x).conn.isSome := by
    rw [State.lane, Server.lane, hi.shared.conn_eq hconnected]
    rfl
  have hlive : (s.server.stopEnter x ok).1.liveOn x = s.server.liveOn x :=
    (congrArg Lane.live hself :)
  refine ⟨(congrArg (fun l : Lane ↦ l.sc.active) hself :), (congrArg Lane.slot hself :),
    fun d hd ↦ ?_, ?_⟩
  · obtain hd' | he := hd.of_step hs
    · exact hd'.superseded hi (.inr (.inl ⟨c, ok, rfl⟩)) hs
    · cases he
  · have hdone := (hi.lane x hx).done hsome
    have hput : (s.put c (s.server.stopEnter x ok)).call c = (s.server.stopEnter x ok).2 :=
      Function.update_self ..
    rw [hput]
    obtain ⟨-, hnone, -, ctx, hp⟩ | ⟨-, hp⟩ := hq
    · refine .inr ⟨.inl ⟨ctx, hp⟩, fun w ↦ ?_⟩
      by_contra hw
      obtain ⟨a, ha⟩ := Option.ne_none_iff_exists'.1 hw
      cases hnone.symm.trans (hdone w a ((congrFun hlive w).symm.trans ha))
    · exact .inl ⟨_, _, hp, fun w a ha ↦ hdone w a ((congrFun hlive w).symm.trans ha)⟩

theorem Phase.claim_stop {p : Phase} {q : Claim} (h : p.claim x = some q) (hk : q.kind = .stop) :
    p = .stopping x q.gen q.done := by
  rcases p with
    _ | ⟨y, conn, waitGen, done⟩ | ⟨y, j, gen, ctx⟩ | ⟨y, j, gen⟩ | ⟨y, j, gen, ctx, socket⟩ |
    ⟨y, ctx⟩ | ⟨y, gen, done⟩ | ⟨conn, dones⟩ | dones | outcome
  all_goals simp only [Phase.claim, Option.ite_none_right_eq_some, Option.some.injEq] at h
  case stopping =>
    obtain ⟨rfl, rfl⟩ := h
    rfl
  case joining | dialing | dialFailed | dialed =>
    obtain ⟨-, rfl⟩ := h
    cases hk
  all_goals cases h

/-- After the first section of OFF, a stream that still runs is being stopped by some OFF. -/
theorem Halted.running (h : Halted k c x s) (hi : SessionInv k s) (hx : x ≠ .control)
    (hrun : (s.server.stream x).running = true) :
    ∃ d done, s.call d = .stopping x (s.server.stream x).gen done := by
  obtain ha | ⟨d, q, hq, hg, hk⟩ := (hi.lane x hx).running hrun
  · exact nomatch h.active.symm.trans ha
  by_cases hstop : q.kind = .stop
  · have hp := Phase.claim_stop hq hstop
    exact ⟨d, q.done, hp.trans (by rw [hg]; rfl)⟩
  · obtain ⟨q', hq', -, hlt⟩ := h.starts d ⟨q, hq, hstop⟩
    obtain rfl : q = q' := Option.some.inj (hq.symm.trans hq')
    exact absurd hg (Nat.ne_of_lt hlt)

/-! ### The life of a stream -/

/-- The workers of the session and the active streams. -/
structure WorkersOwned (s : State) : Prop where
  /-- A stream has at most one worker that has not closed its `done` channel. -/
  unique : ∀ v w, s.server.Live v → s.server.Live w →
    (s.server.worker v).stream = (s.server.worker w).stream → v = w
  /-- An active stream runs, and has a worker of its generation, whose socket is the one in the slot
  until its capture returns. -/
  active : ∀ x, (s.server.stream x).active = true → (s.server.stream x).running = true ∧
    ∃ k w, s.server.conn = some k ∧ s.server.Live w ∧ (s.server.worker w).conn = k ∧
      (s.server.worker w).stream = x ∧ (s.server.worker w).gen = (s.server.stream x).gen ∧
      ((s.server.worker w).phase = .running → ∃ socket,
        (s.server.worker w).socket = some socket ∧
          (s.server.connection k).slot x = some socket)

/-- A start that is pending when a later ON, OFF or `Disconnect` enters: in every run from there it
is pending or has failed with its socket closed, and none of its sections makes a stream active. -/
def SupersededFails (s : State) : Prop :=
  ∀ c x e t, Pending s c x → Supersedes e x → step s e = some t →
    ∀ es u, exec step t es = some u → (Pending u c x ∨ Failed u c) ∧
      Along step (fun s e ↦ ∀ ok, e = .advance c ok → ∀ t, step s e = some t →
        ∀ y, (t.server.stream y).active = true → (s.server.stream y).active = true) t es

/-- An OFF that has returned nil, in a run in which no ON of the stream entered since: the stream is
inactive, has no worker and no socket, and if it still runs, another OFF is at work on it. -/
def OffStops (s : State) : Prop :=
  ∀ c x ok t, step s (.stop c x ok) = some t →
    ∀ es u, (∀ e ∈ es, ∀ d, e ≠ .start d x) → exec step t es = some u →
      u.call c = .returned .stopped →
        (u.server.stream x).active = false ∧
          (∀ w, u.server.Live w → (u.server.worker w).stream ≠ x) ∧
          (∀ k, s.server.conn = some k → (u.server.connection k).slot x = none) ∧
          ((u.server.stream x).running = true →
            ∃ d done, u.call d = .stopping x (u.server.stream x).gen done)

theorem Starts.socketInv (h : Starts s) : SocketInv s := by
  intro c i hc
  rw [h.2 c] at hc
  cases hc

/-- The invariants of every reachable state. -/
theorem reachable_inv (h : Reachable Starts step s) : ∃ k, SessionInv k s ∧ SocketInv s := by
  refine h.invariant (P := fun s ↦ ∃ k, SessionInv k s ∧ SocketInv s) (fun s hs ↦ ?_) ?_
  · obtain ⟨k, hk⟩ := hs.inv
    exact ⟨k, hk, hs.socketInv⟩
  · rintro s e t ⟨k, hi, hsock⟩ hs
    exact ⟨k, hi.step hs, hsock.step hi hs⟩

theorem SessionInv.workersOwned (hi : SessionInv k s) : WorkersOwned s where
  unique v w hv hw heq := (hi.lane _ (hi.shared.worker w hw).2).unique v w _ _
    (Server.liveOn_eq_some_iff.2 ⟨hv, rfl, heq⟩) (Server.liveOn_eq_some_iff.2 ⟨hw, rfl, rfl⟩)
  active x ha := by
    have hx : x ≠ .control := by
      rintro rfl
      exact nomatch hi.control.symm.trans ha
    obtain ⟨hrun, w, a, hw, hconn, hgen, -, -, hsock⟩ := (hi.lane x hx).active ha
    obtain ⟨hl, rfl, hax⟩ := Server.liveOn_eq_some_iff.1 hw
    have hk := (hi.shared.worker w hl).1
    refine ⟨hrun, k, w, hconn.trans (congrArg some hk), hl, hk, hax, hgen, fun hp ↦ ?_⟩
    obtain ⟨hsome, hslot⟩ := hsock (by rw [hp]; rfl)
    obtain ⟨socket, hsocket⟩ := Option.isSome_iff_exists.1 hsome
    exact ⟨socket, hsocket, hslot.trans hsocket⟩

/-- A superseded start in a run. -/
theorem SessionInv.supersededFails (hi : SessionInv k s) (hsock : SocketInv s) :
    SupersededFails s := by
  intro c x e t hp he hs es
  have hit := hi.step hs
  have hsockt := hsock.step hi hs
  have ht : Superseded t c x ∨ Failed t c := .inl (hp.superseded hi he hs)
  clear hp he hs hi hsock
  induction es generalizing t with
  | nil =>
    intro u hu
    rw [exec_nil, Option.some.injEq] at hu
    subst hu
    exact ⟨ht.imp_left fun ⟨q, hq, hk, _⟩ ↦ ⟨q, hq, hk⟩, trivial⟩
  | cons e es ih =>
    intro u hu
    obtain ⟨t', ht', hu⟩ := exec_cons_eq_some_iff.1 hu
    obtain ⟨hend, halong⟩ := ih t' (hit.step ht') (hsockt.step hit ht')
      (Superseded.step ht hit hsockt ht') u hu
    refine ⟨hend, Along.cons ?_ ht' halong⟩
    rintro ok rfl t'' ht'' y hy
    obtain hq | ⟨d, ok', z, j, gen, ctx, socket, he, hc, hmay, -⟩ := step_cases ht''
    · exact hq.active y hy
    · -- a commit needs the latest generation
      cases he
      obtain ⟨q, hq, -, hlt⟩ | ⟨socket', hfailed, -⟩ := ht
      · rw [State.claim, hc] at hq
        obtain ⟨rfl, heq⟩ := Option.ite_none_right_eq_some.1 hq
        obtain rfl := Option.some.inj heq
        rw [Server.mayStart, decide_eq_true_eq] at hmay
        exact absurd hmay.2.2.1.symm (Nat.ne_of_lt hlt)
      · rw [hc] at hfailed
        cases hfailed

theorem returned_step {outcome : Outcome} (h : s.call c = .returned outcome) {e : Event}
    (hs : step s e = some t) : t.call c = .returned outcome := by
  obtain ⟨ok, rfl⟩ | hidle | hsame := call_step hs c
  · rw [step, h] at hs
    cases hs
  · rw [h] at hidle
    cases hidle
  · exact hsame.trans h

/-- An OFF in a run. -/
theorem SessionInv.offStops (hi : SessionInv k s) (hsock : SocketInv s) : OffStops s := by
  intro c x ok t hs es u hes hu hret
  have hfail {outcome : Outcome} (ht : t.call c = .returned outcome) : outcome = .stopped := by
    have := exec_invariant (P := fun s ↦ s.call c = .returned outcome)
      (fun _ _ _ h hs ↦ returned_step h hs) ht hu
    rw [hret] at this
    exact (Phase.returned.inj this).symm
  have hs' := hs
  rw [Session.step] at hs'
  split at hs'
  · cases hs'
  have hx : x ≠ .control := by
    rintro rfl
    cases hs'
    cases hfail (Function.update_self ..)
  have hconnected : s.server.connected = true := by
    by_contra hd
    rw [if_neg hx] at hs'
    cases hs'
    have hp : (s.server.stopEnter x ok).2 = .returned .stopFailed := by
      rw [Server.stopEnter, if_pos (eq_false_of_ne_true hd)]
    cases hfail ((Function.update_self ..).trans hp)
  have hhalt : SessionInv k u ∧ SocketInv u ∧ Halted k c x u := by
    refine exec_invariant_along (C := fun _ e ↦ ∀ d, e ≠ .start d x)
      (P := fun s ↦ SessionInv k s ∧ SocketInv s ∧ Halted k c x s) ?_
      (along_of_forall_mem hes) ⟨hi.step hs, hsock.step hi hs,
        halted_of_stop hi hx hconnected hs⟩ hu
    rintro s e t he ⟨hi, hsock, hh⟩ hs
    exact ⟨hi.step hs, hsock.step hi hs, hh.step hi hsock he hs⟩
  obtain ⟨hiu, -, hh⟩ := hhalt
  refine ⟨hh.active, fun w hl hw ↦ ?_, fun j hj ↦ ?_, hh.running hiu hx⟩
  · obtain ⟨gen, done, hc, -⟩ | ⟨-, hnone⟩ := hh.call
    · rw [hret] at hc
      cases hc
    · cases (hnone w).symm.trans (Server.liveOn_eq_some_iff.2 ⟨hl, rfl, hw⟩)
  · rw [hi.shared.conn j hj]
    exact hh.slot

/-- **The life of a stream.** In every reachable state of a session: every stream has at most one
worker, and an active one runs with the socket of its slot; a start that is superseded fails and
closes its socket; and an OFF that has returned has stopped the stream. -/
theorem stream_lifecycle (h : Reachable Starts step s) :
    WorkersOwned s ∧ SupersededFails s ∧ OffStops s := by
  obtain ⟨k, hi, hsock⟩ := reachable_inv h
  exact ⟨hi.workersOwned, hi.supersededFails hsock, hi.offStops hsock⟩

/-- A new controller for which a `Connect` dialed a connection with the speaker socket 0. -/
def speakerDialed : Server :=
  { Server.newServerController with
    connection := fun _ ↦ ⟨false, fun x ↦ if x = .speaker then some 0 else none⟩
    nextConn := 1, nextSocket := 1 }

/-- The first session of a new controller. -/
def firstSession : State :=
  ⟨speakerDialed.connectCommit 0 0 0, fun _ ↦ .idle⟩

theorem firstSession_starts : Starts firstSession := by
  refine ⟨⟨speakerDialed, 0, 0, 0, 0, ⟨rfl, fun x ↦ ⟨0, rfl⟩, fun w hw ↦ ?_⟩, ?_, rfl, rfl⟩,
    fun _ ↦ rfl⟩
  · exact hw.2 rfl
  · decide

/-- The camera is toggled on and off, and its worker exits in between. -/
def onThenOff : List Event :=
  [.start 0 .camera, .advance 0 true, .advance 0 true, .stop 1 .camera true] ++
    List.replicate 4 (.worker 1 true) ++ [.advance 1 true]

/-- The camera's life: its worker is the second of the session, and OFF waits for it. -/
theorem stream_lifecycle_onThenOff :
    ∃ s, exec step firstSession onThenOff = some s ∧ s.call 0 = .returned (.started (some 1)) ∧
      s.call 1 = .returned .stopped ∧ WorkersOwned s ∧ SupersededFails s ∧ OffStops s := by
  have hrun : (exec step firstSession onThenOff).map (fun s ↦ (s.call 0, s.call 1)) =
      some (.returned (.started (some 1)), .returned .stopped) := by
    decide
  obtain ⟨s, hs, hcall⟩ := Option.map_eq_some_iff.1 hrun
  obtain ⟨hon, hoff⟩ := Prod.mk.inj hcall
  exact ⟨s, hs, hon, hoff, stream_lifecycle ⟨_, _, firstSession_starts, hs⟩⟩

end AllRelay.Session
