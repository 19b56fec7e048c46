import AllRelay.Library.LabelledSystem
import AllRelay.Controller.Frame

/-!
# Connect and Disconnect

Any number of `Connect` and `Disconnect` calls run at once. A `Connect` that finds the controller
connected gives up `sc.mu` for an inner `Disconnect`, and every `Connect` gives it up again for the
dial; a `Disconnect` closes the connection and waits for the workers outside the lock. A call is a
`Phase`, and `step` runs the next section of one call or of one worker.

`Owned` says that nothing leaks: a connection that a `Connect` returned with is the current one,
closed, or in the hands of a `Disconnect` that is about to close it, and a speaker worker that has
not exited can still be cancelled, or already is.

The section of `Connect` after its inner `Disconnect` does not look at `connected` again. Another
`Connect` may have committed meanwhile, and the commit of the first then replaces a connection that
nobody closes (`connect_replaces_connection`). `connection_ownership` says that this is the only
leak: `Owned` holds throughout a run exactly when no commit finds the controller connected
(`CommitsDisconnected`).
-/

open LabelledSystem

namespace AllRelay.Connecting

/-- The index of a call. -/
abbrev CallId := ℕ

/-- Where a call of `Connect` or `Disconnect` is. `inner` marks the `Disconnect` that a `Connect`
calls. -/
inductive Phase where
  /-- Not called yet. -/
  | idle
  /-- Before the locked section of `Disconnect`. -/
  | disconnect (inner : Bool)
  /-- Before `conn.Close()`. -/
  | closing (inner : Bool) (conn : Option ConnId) (dones : List WorkerId)
  /-- Waiting for the workers. -/
  | waiting (inner : Bool) (dones : List WorkerId)
  /-- Before the section that follows the inner `Disconnect`. -/
  | relock
  /-- In the dial. -/
  | dialing (gen : ℕ) (ctx : CtxId)
  /-- The dial failed. -/
  | dialFailed (gen : ℕ)
  /-- The dial succeeded. -/
  | dialed (gen : ℕ) (ctx : CtxId) (conn : ConnId)
  /-- Returned, with the connection that a `Connect` dialed. -/
  | returned (conn : Option ConnId)
deriving DecidableEq, Repr

/-- The controller and the calls. -/
structure State where
  /-- The controller. -/
  server : Server
  /-- The calls. -/
  call : CallId → Phase

/-- What the scheduler chooses. -/
inductive Event where
  /-- A call of `Connect` starts. -/
  | connect (c : CallId)
  /-- A call of `Disconnect` starts. -/
  | disconnect (c : CallId)
  /-- The next section of a call; `ok` is the outcome of its dial or of its display write. -/
  | advance (c : CallId) (ok : Bool)
  /-- The next step of a worker. -/
  | worker (w : WorkerId) (ok : Bool)
deriving DecidableEq, Repr

/-- No call has started. -/
def initial : State := ⟨Server.newServerController, fun _ ↦ .idle⟩

end AllRelay.Connecting

namespace AllRelay.Server

open Connecting

/-- The section of `Connect` that starts the dial. -/
def connectBegin (s : Server) : Server × Phase :=
  ({ s.withCancel with connectGen := s.connectGen + 1, connectCancel := some s.nextCtx },
    .dialing (s.connectGen + 1) s.nextCtx)

/-- The first section of `Connect`. -/
def connectEnter (s : Server) : Server × Phase :=
  let s := { s.cancel s.connectCancel with connectCancel := none }
  if s.connected then (s, .disconnect true) else s.connectBegin

/-- `transport.ConnectContext` dialed the speaker stream. -/
def dialConnection (s : Server) : Server × ConnId :=
  let socket := s.nextSocket
  let s := s.dialSocket
  ({ s with
      connection := Function.update s.connection s.nextConn
        ⟨false, fun x ↦ if x = .speaker then some socket else none⟩
      nextConn := s.nextConn + 1 }, s.nextConn)

/-- The section of `Connect` after a failed dial. -/
def connectFailed (s : Server) (gen : ℕ) : Server :=
  if s.connectGen = gen then { s with connectCancel := none } else s

/-- The check of the commit section of `Connect`. -/
def mayConnect (s : Server) (gen : ℕ) (ctx : CtxId) : Bool :=
  s.connectGen = gen ∧ s.cancelled ctx = false

/-- The commit section of `Connect`. -/
def connectCommit (s : Server) (gen : ℕ) (ctx : CtxId) (k : ConnId) : Server :=
  if s.mayConnect gen ctx then
    ({ s with
      connectCancel := none, conn := some k, connected := true }).launchSpeakerWorkerLocked k
  else s.closeConnection k

/-- The locked section of `Disconnect`. -/
def disconnectSection (s : Server) (inner ok : Bool) : Server × Phase :=
  match s.disconnectLocked ok with
  | (s, some (conn, dones)) => (s, .closing inner conn dones)
  | (s, none) => (s, if inner then .relock else .returned none)

end AllRelay.Server

namespace AllRelay.Connecting

/-- The next section of a call. -/
def advance (s : Server) (ok : Bool) : Phase → Option (Server × Phase)
  | .idle => none
  | .disconnect inner => some (s.disconnectSection inner ok)
  | .closing inner conn dones => some (s.closeConn conn, .waiting inner dones)
  | .waiting inner dones =>
    if dones.all fun w ↦ s.joined (some w) then
      some (s, if inner then .relock else .returned none)
    else none
  | .relock => some s.connectBegin
  | .dialing gen ctx =>
    if ok then some (s.dialConnection.1, .dialed gen ctx s.dialConnection.2)
    else some (s, .dialFailed gen)
  | .dialFailed gen => some (s.connectFailed gen, .returned none)
  | .dialed gen ctx k => some (s.connectCommit gen ctx k, .returned (some k))
  | .returned _ => none

/-- A call goes on with the result of its section. -/
def State.put (s : State) (c : CallId) (r : Server × Phase) : State :=
  ⟨r.1, Function.update s.call c r.2⟩

/-- One step of the system. -/
def step (s : State) : Event → Option State
  | .connect c => if s.call c = .idle then some (s.put c s.server.connectEnter) else none
  | .disconnect c =>
    if s.call c = .idle then some (s.put c (s.server, .disconnect false)) else none
  | .advance c ok => (advance s.server ok (s.call c)).map (s.put c)
  | .worker w ok => (s.server.workerStep w ok).map fun server ↦ { s with server }

/-- A `Disconnect` has taken a connection out of the controller and is about to close it. -/
def BeingClosed (s : State) (k : ConnId) : Prop :=
  ∃ d inner dones, s.call d = .closing inner (some k) dones

/-- No connection and no speaker worker is lost. -/
structure Owned (s : State) : Prop where
  /-- A connection that a `Connect` returned with is current, closed or about to be. -/
  conn : ∀ c k, s.call c = .returned (some k) →
    s.server.conn = some k ∨ (s.server.connection k).closed = true ∨ BeingClosed s k
  /-- The context of a live speaker worker is cancelled, or the controller can cancel it. -/
  speaker : ∀ w, s.server.Live w → (s.server.worker w).stream = .speaker →
    s.server.cancelled (s.server.worker w).ctx = true ∨
      (s.server.stream .speaker).cancel = some (s.server.worker w).ctx

/-- The condition on a step: a `Connect` that commits finds the controller disconnected. -/
def CommitsDisconnected (s : State) : Event → Prop
  | .advance c _ => ∀ gen ctx k, s.call c = .dialed gen ctx k →
      s.server.mayConnect gen ctx = true → s.server.connected = false
  | _ => True

/-! ### Who owns a connection -/

/-- The connection in the hands of a call: dialed and not committed, or about to be closed. -/
def Phase.holds : Phase → Option ConnId
  | .closing _ conn _ => conn
  | .dialed _ _ k => some k
  | _ => none

/-- Each connection that is not closed has one owner: a call that holds it, or the controller. -/
structure Ledger (nextConn : ConnId) (closed : ConnId → Bool) (conn : Option ConnId)
    (call : CallId → Phase) : Prop where
  /-- A connection that a call holds is open, not current and in no other hands. -/
  held : ∀ c k, (call c).holds = some k → k < nextConn ∧ closed k = false ∧ conn ≠ some k ∧
    ∀ d, (call d).holds = some k → d = c
  /-- The current connection is open, and the call that dialed it has returned. -/
  current : ∀ k, conn = some k → k < nextConn ∧ closed k = false ∧
    ∃ c, call c = .returned (some k)
  /-- A connection that a call returned with is accounted for. -/
  returned : ∀ c k, call c = .returned (some k) → k < nextConn ∧
    (conn = some k ∨ closed k = true ∨ ∃ d inner dones, call d = .closing inner (some k) dones)

section Ledger

variable {nextConn : ConnId} {closed : ConnId → Bool} {conn : Option ConnId}
  {call : CallId → Phase} {c d : CallId} {p q : Phase} {k : ConnId}

/-- What the moved call does not hold, another one held before. -/
theorem holds_of_update (hp : p.holds ≠ some k)
    (h : (Function.update call c p d).holds = some k) : d ≠ c ∧ (call d).holds = some k := by
  have hdc : d ≠ c := by
    rintro rfl
    rw [Function.update_self] at h
    exact hp h
  rw [Function.update_of_ne hdc] at h
  exact ⟨hdc, h⟩

theorem eq_of_update (hp : p ≠ q) (h : Function.update call c p d = q) : d ≠ c ∧ call d = q := by
  have hdc : d ≠ c := by
    rintro rfl
    rw [Function.update_self] at h
    exact hp h
  rw [Function.update_of_ne hdc] at h
  exact ⟨hdc, h⟩

/-- The phase of a call that is not the moved one stays. -/
theorem update_eq (hc : call c ≠ q) (h : call d = q) : Function.update call c p d = q := by
  rwa [Function.update_of_ne]
  rintro rfl
  exact hc h

theorem ne_closing (hc : (call c).holds = none) (inner : Bool) (dones : List WorkerId) :
    call c ≠ .closing inner (some k) dones := by
  intro heq
  rw [heq] at hc
  cases hc

/-- A call moves between phases that own nothing. -/
theorem Ledger.move (h : Ledger nextConn closed conn call) {p : Phase}
    (hc : (call c).holds = none) (hc' : ∀ k, call c ≠ .returned (some k)) (hp : p.holds = none)
    (hp' : ∀ k, p ≠ .returned (some k)) :
    Ledger nextConn closed conn (Function.update call c p) where
  held d k hd := by
    have hpk : p.holds ≠ some k := by simp [hp]
    obtain ⟨-, hd⟩ := holds_of_update hpk hd
    obtain ⟨hk, ho, hn, hu⟩ := h.held d k hd
    exact ⟨hk, ho, hn, fun e he ↦ hu e (holds_of_update hpk he).2⟩
  current k hk := by
    obtain ⟨hlt, ho, d, hd⟩ := h.current k hk
    exact ⟨hlt, ho, d, update_eq (hc' k) hd⟩
  returned d k hd := by
    obtain ⟨-, hd⟩ := eq_of_update (hp' k) hd
    obtain ⟨hlt, hk⟩ := h.returned d k hd
    refine ⟨hlt, hk.imp_right (Or.imp_right ?_)⟩
    rintro ⟨e, inner, dones, he⟩
    exact ⟨e, inner, dones, update_eq (ne_closing hc inner dones) he⟩

/-- A call dials a new connection and holds it. -/
theorem Ledger.dial (h : Ledger nextConn closed conn call) (gen : ℕ) (ctx : CtxId)
    (hc : (call c).holds = none) (hc' : ∀ k, call c ≠ .returned (some k)) :
    Ledger (nextConn + 1) (Function.update closed nextConn false) conn
      (Function.update call c (.dialed gen ctx nextConn)) where
  held d k hd := by
    by_cases hdc : d = c
    · subst hdc
      rw [Function.update_self, Phase.holds, Option.some.injEq] at hd
      subst hd
      refine ⟨Nat.lt_succ_self _, Function.update_self .., fun hn ↦ ?_, fun e he ↦ ?_⟩
      · exact absurd (h.current _ hn).1 (Nat.lt_irrefl _)
      · by_contra hed
        rw [Function.update_of_ne hed] at he
        exact absurd (h.held e _ he).1 (Nat.lt_irrefl _)
    · rw [Function.update_of_ne hdc] at hd
      obtain ⟨hk, ho, hn, hu⟩ := h.held d k hd
      have hpk : (Phase.dialed gen ctx nextConn).holds ≠ some k := fun heq ↦
        Nat.ne_of_gt hk (Option.some.inj heq)
      exact ⟨Nat.lt_succ_of_lt hk, by rwa [Function.update_of_ne (Nat.ne_of_lt hk)], hn,
        fun e he ↦ hu e (holds_of_update hpk he).2⟩
  current k hk := by
    obtain ⟨hlt, ho, d, hd⟩ := h.current k hk
    exact ⟨Nat.lt_succ_of_lt hlt, by rwa [Function.update_of_ne (Nat.ne_of_lt hlt)], d,
      update_eq (hc' k) hd⟩
  returned d k hd := by
    obtain ⟨-, hd⟩ := eq_of_update (by simp) hd
    obtain ⟨hlt, hk⟩ := h.returned d k hd
    rw [Function.update_of_ne (Nat.ne_of_lt hlt)]
    refine ⟨Nat.lt_succ_of_lt hlt, hk.imp_right (Or.imp_right ?_)⟩
    rintro ⟨e, inner, dones, he⟩
    exact ⟨e, inner, dones, update_eq (ne_closing hc inner dones) he⟩

/-- A call hands the connection that it dialed to a controller that has none. -/
theorem Ledger.commit (h : Ledger nextConn closed none call) {gen : ℕ} {ctx : CtxId} {k : ConnId}
    (hc : call c = .dialed gen ctx k) :
    Ledger nextConn closed (some k) (Function.update call c (.returned (some k))) where
  held d j hd := by
    have hpj : (Phase.returned (some k)).holds ≠ some j := by simp [Phase.holds]
    obtain ⟨hdc, hd⟩ := holds_of_update hpj hd
    obtain ⟨hj, ho, -, hu⟩ := h.held d j hd
    refine ⟨hj, ho, ?_, fun e he ↦ hu e (holds_of_update hpj he).2⟩
    rw [Ne, Option.some.injEq]
    rintro rfl
    exact hdc (hu c (by rw [hc]; rfl)).symm
  current j hj := by
    obtain rfl : k = j := Option.some.inj hj
    obtain ⟨hlt, ho, -⟩ := h.held c k (by rw [hc]; rfl)
    exact ⟨hlt, ho, c, Function.update_self ..⟩
  returned d j hd := by
    by_cases hdc : d = c
    · subst hdc
      rw [Function.update_self, Phase.returned.injEq] at hd
      exact ⟨(h.held d j (by rw [hc, Phase.holds, hd])).1, .inl hd⟩
    · rw [Function.update_of_ne hdc] at hd
      obtain ⟨hlt, hn | ho | ⟨e, inner, dones, he⟩⟩ := h.returned d j hd
      · cases hn
      · exact ⟨hlt, .inr (.inl ho)⟩
      · exact ⟨hlt, .inr (.inr ⟨e, inner, dones, update_eq (by simp [hc]) he⟩)⟩

/-- A `Disconnect` takes the current connection out of the controller. -/
theorem Ledger.detach {k : ConnId} (h : Ledger nextConn closed (some k) call)
    (hc : (call c).holds = none) (hc' : ∀ k, call c ≠ .returned (some k)) (inner : Bool)
    (dones : List WorkerId) :
    Ledger nextConn closed none (Function.update call c (.closing inner (some k) dones)) where
  held d j hd := by
    by_cases hdc : d = c
    · subst hdc
      rw [Function.update_self, Phase.holds, Option.some.injEq] at hd
      subst hd
      obtain ⟨hlt, ho, -⟩ := h.current k rfl
      refine ⟨hlt, ho, nofun, fun e he ↦ ?_⟩
      by_contra hed
      rw [Function.update_of_ne hed] at he
      exact (h.held e k he).2.2.1 rfl
    · rw [Function.update_of_ne hdc] at hd
      obtain ⟨hlt, ho, hn, hu⟩ := h.held d j hd
      have hpj : (Phase.closing inner (some k) dones).holds ≠ some j := hn
      exact ⟨hlt, ho, nofun, fun e he ↦ hu e (holds_of_update hpj he).2⟩
  current j hj := by cases hj
  returned d j hd := by
    obtain ⟨-, hd⟩ := eq_of_update (by simp) hd
    obtain ⟨hlt, hn | ho | ⟨e, i, ds, he⟩⟩ := h.returned d j hd
    · exact ⟨hlt, .inr (.inr ⟨c, inner, dones, by rw [Function.update_self, hn]⟩)⟩
    · exact ⟨hlt, .inr (.inl ho)⟩
    · exact ⟨hlt, .inr (.inr ⟨e, i, ds, update_eq (ne_closing hc i ds) he⟩)⟩

/-- A call closes the connection that it holds. -/
theorem Ledger.close (h : Ledger nextConn closed conn call) {k : ConnId} {p : Phase}
    (hc : (call c).holds = some k) (hp : p.holds = none)
    (hp' : ∀ j, p = .returned (some j) → j = k) (hc' : ∀ j, call c ≠ .returned (some j)) :
    Ledger nextConn (fun j ↦ closed j || j = k) conn (Function.update call c p) where
  held d j hd := by
    have hpj : p.holds ≠ some j := by simp [hp]
    obtain ⟨hdc, hd⟩ := holds_of_update hpj hd
    obtain ⟨hlt, ho, hn, hu⟩ := h.held d j hd
    refine ⟨hlt, ?_, hn, fun e he ↦ hu e (holds_of_update hpj he).2⟩
    have hjk : j ≠ k := by rintro rfl; exact hdc (hu c hc).symm
    simp [ho, hjk]
  current j hj := by
    obtain ⟨hlt, ho, d, hd⟩ := h.current j hj
    have hjk : j ≠ k := by rintro rfl; exact (h.held c j hc).2.2.1 hj
    exact ⟨hlt, by simp [ho, hjk], d, update_eq (hc' j) hd⟩
  returned d j hd := by
    by_cases hdc : d = c
    · subst hdc
      rw [Function.update_self] at hd
      obtain rfl := hp' j hd
      exact ⟨(h.held d j hc).1, .inr (.inl (by simp))⟩
    · rw [Function.update_of_ne hdc] at hd
      obtain ⟨hlt, hn | ho | ⟨e, i, ds, he⟩⟩ := h.returned d j hd
      · exact ⟨hlt, .inl hn⟩
      · exact ⟨hlt, .inr (.inl (by simp [ho]))⟩
      · by_cases hec : e = c
        · subst hec
          rw [he, Phase.holds, Option.some.injEq] at hc
          exact ⟨hlt, .inr (.inl (by simp [hc]))⟩
        · exact ⟨hlt, .inr (.inr ⟨e, i, ds, by rwa [Function.update_of_ne hec]⟩)⟩

end Ledger

/-! ### What a section leaves alone -/

/-- A section that also keeps the cancel function of the speaker stream. -/
structure Keeps (s t : Server) : Prop extends Server.Frame s t where
  /-- The cancel function is kept. -/
  cancel : (t.stream .speaker).cancel = (s.stream .speaker).cancel

namespace Keeps

open Server (Frame)

variable {s t u : Server}

theorem refl (s : Server) : Keeps s s :=
  ⟨Frame.refl s, rfl⟩

theorem trans (h : Keeps s t) (h' : Keeps t u) : Keeps s u :=
  ⟨h.toFrame.trans h'.toFrame, h'.cancel.trans h.cancel⟩

theorem endScreenSession (s : Server) (ok : Bool) : Keeps s (s.endScreenSession ok) := by
  refine ⟨Frame.endScreenSession s ok, ?_⟩
  rw [Server.endScreenSession]
  split <;> rfl

theorem workerStep {w : WorkerId} {ok : Bool} (h : s.workerStep w ok = some t) : Keeps s t := by
  refine ⟨Frame.workerStep h, ?_⟩
  have hcontrol (t : Server) (k : ConnId) (gen hubGen : ℕ) :
      (t.closeScreenControl k gen hubGen).stream = t.stream := by
    rw [Server.closeScreenControl]
    split
    · rcases (t.connection k).slot .control with _ | c
      · rfl
      · simp only [Server.closeControlConn, Server.closeSocket]
        split <;> rfl
    · rfl
  have hcleanup : ((s.workerCleanup (s.worker w)).stream .speaker).cancel =
      (s.stream .speaker).cancel := by
    rw [Server.workerCleanup]
    split
    · split
      · rename_i hx
        rw [Server.setStream_stream, if_neg (by rintro ⟨⟩)]
      · rw [Server.setStream_stream]
        split
        · rename_i hx
          rw [hx]
        · rfl
    · rfl
  rw [Server.workerStep] at h
  split at h
  · cases h
  · split at h <;> cases h
    · rfl
    · rfl
    · exact congrArg (fun f ↦ StreamController.cancel (f .speaker)) (hcontrol ..)
    · rfl
    · exact hcleanup
    · rfl
    · rfl

theorem abortConnect (s : Server) : Keeps s s.abortConnect := by
  refine ⟨Frame.abortConnect s, ?_⟩
  rw [Server.abortConnect]
  split <;> rfl

theorem connectBegin (s : Server) : Keeps s s.connectBegin.1 :=
  ⟨(Frame.withCancel s).trans (Frame.of_eq rfl rfl rfl rfl rfl rfl rfl rfl rfl rfl rfl), rfl⟩

theorem connectEnter (s : Server) : Keeps s s.connectEnter.1 := by
  have h : Keeps s { s.cancel s.connectCancel with connectCancel := none } :=
    ⟨(Frame.cancelCtx ..).trans (Frame.of_eq rfl rfl rfl rfl rfl rfl rfl rfl rfl rfl rfl), rfl⟩
  rw [Server.connectEnter]
  split
  · exact h
  · exact h.trans (connectBegin _)

theorem connectFailed (s : Server) (gen : ℕ) : Keeps s (s.connectFailed gen) := by
  rw [Server.connectFailed]
  split
  · exact ⟨Frame.of_eq rfl rfl rfl rfl rfl rfl rfl rfl rfl rfl rfl, rfl⟩
  · exact refl s

end Keeps

/-! ### The invariant -/

/-- The part of the invariant about the controller alone. -/
structure ServerInv (s : Server) : Prop where
  /-- `connected` says whether there is a connection. -/
  connected : s.connected = s.conn.isSome
  /-- A disconnected controller holds no speaker worker. -/
  cancel : s.connected = false → (s.stream .speaker).cancel = none
  /-- The context of a live worker is allocated. -/
  ctx : ∀ w, s.Live w → (s.worker w).ctx < s.nextCtx
  /-- `Owned.speaker`. -/
  speaker : ∀ w, s.Live w → (s.worker w).stream = .speaker →
    s.cancelled (s.worker w).ctx = true ∨ (s.stream .speaker).cancel = some (s.worker w).ctx

section Server

variable {s t : Server}

theorem ServerInv.keeps (hi : ServerInv s) (h : Keeps s t) : ServerInv t where
  connected := by rw [h.connected, h.conn, hi.connected]
  cancel hc := by rw [h.cancel, hi.cancel (h.connected ▸ hc)]
  ctx w hw := by
    obtain ⟨hs, phase, heq⟩ := h.live w hw
    rw [heq]
    exact Nat.lt_of_lt_of_le (hi.ctx w hs) h.nextCtx
  speaker w hw hx := by
    obtain ⟨hs, phase, heq⟩ := h.live w hw
    rw [heq] at hx ⊢
    rw [h.cancel]
    exact (hi.speaker w hs hx).imp_left (h.cancelled _ (hi.ctx w hs))

theorem ServerInv.closeConnection (hi : ServerInv s) (k : ConnId) :
    ServerInv (s.closeConnection k) := by
  rw [Server.closeConnection]
  split
  · exact hi
  · exact ⟨hi.connected, hi.cancel, hi.ctx, hi.speaker⟩

theorem ServerInv.dialConnection (hi : ServerInv s) : ServerInv s.dialConnection.1 :=
  ⟨hi.connected, hi.cancel, hi.ctx, hi.speaker⟩

theorem dialConnection_closed (s : Server) (k : ConnId) :
    (s.dialConnection.1.connection k).closed =
      Function.update (fun j ↦ (s.connection j).closed) s.nextConn false k := by
  simp only [Server.dialConnection, Server.dialSocket, Function.update_apply]
  split <;> rfl

theorem connectEnter_phase (s : Server) :
    s.connectEnter.2.holds = none ∧ ∀ k, s.connectEnter.2 ≠ .returned (some k) := by
  rw [Server.connectEnter]
  split
  · exact ⟨rfl, nofun⟩
  · exact ⟨rfl, nofun⟩

/-- What the locked section of `Disconnect` does to a connected controller. -/
structure Detached (s t : Server) : Prop where
  /-- The controller is disconnected. -/
  connected : t.connected = false
  /-- The controller has no connection. -/
  conn : t.conn = none
  /-- No connection is allocated. -/
  nextConn : t.nextConn = s.nextConn
  /-- No connection is closed yet. -/
  closed : ∀ k, (t.connection k).closed = (s.connection k).closed
  /-- The speaker stream holds no worker. -/
  cancel : (t.stream .speaker).cancel = none
  /-- A live worker was live before, and is the same but for its phase. -/
  live : ∀ w, t.Live w → s.Live w ∧ ∃ phase, t.worker w = { s.worker w with phase }
  /-- Contexts may be allocated. -/
  nextCtx : s.nextCtx ≤ t.nextCtx
  /-- The speaker worker that the controller held is cancelled. -/
  cancelled : ∀ c < s.nextCtx, s.cancelled c = true ∨ (s.stream .speaker).cancel = some c →
    t.cancelled c = true

theorem detached_detach (s : Server) : Detached s s.detach where
  connected := rfl
  conn := rfl
  nextConn := rfl
  closed _ := rfl
  cancel := rfl
  live w h := ⟨h, _, rfl⟩
  nextCtx := Nat.le_refl _
  cancelled c _ h := by
    simp only [Server.detach, Bool.or_eq_true, List.any_eq_true, decide_eq_true_eq]
    exact h.imp_right fun hc ↦ ⟨_, StreamId.mem_all _, hc⟩

theorem Detached.of_keeps {u : Server} (h : Keeps s t) (h' : Detached t u) : Detached s u where
  connected := h'.connected
  conn := h'.conn
  nextConn := h'.nextConn.trans h.nextConn
  closed k := (h'.closed k).trans (h.closed k)
  cancel := h'.cancel
  live w hw := by
    obtain ⟨ht, phase', hw'⟩ := h'.live w hw
    obtain ⟨hs, phase, hw⟩ := h.live w ht
    exact ⟨hs, phase', by rw [hw', hw]⟩
  nextCtx := Nat.le_trans h.nextCtx h'.nextCtx
  cancelled c hc hcs :=
    h'.cancelled c (Nat.lt_of_lt_of_le hc h.nextCtx) (hcs.imp (h.cancelled c hc) h.cancel.trans)

/-- The locked section of `Disconnect` ends a pending `Connect`, and then the session if there is
one. -/
theorem disconnectLocked_cases (s : Server) (ok : Bool) :
    (s.connected = false ∧ ∃ t, s.disconnectLocked ok = (t, none) ∧ Keeps s t) ∨
      (s.connected = true ∧ ∃ t dones, s.disconnectLocked ok = (t, some (s.conn, dones)) ∧
        Detached s t) := by
  have ha := Keeps.abortConnect s
  rw [Server.disconnectLocked]
  rcases hc : s.connected with _ | _
  · refine .inl ⟨rfl, s.abortConnect, ?_, ha⟩
    rw [if_neg (by rw [ha.connected, hc]; decide)]
  · have he := ha.trans (Keeps.endScreenSession s.abortConnect ok)
    refine .inr ⟨rfl, _, (s.abortConnect.endScreenSession ok).dones, ?_,
      (detached_detach _).of_keeps he⟩
    rw [if_pos (by rw [ha.connected, hc]), ← he.conn]

theorem ServerInv.detached (hi : ServerInv s) (h : Detached s t) : ServerInv t where
  connected := by rw [h.connected, h.conn, Option.isSome_none]
  cancel _ := h.cancel
  ctx w hw := by
    obtain ⟨hs, phase, heq⟩ := h.live w hw
    rw [heq]
    exact Nat.lt_of_lt_of_le (hi.ctx w hs) h.nextCtx
  speaker w hw hx := by
    obtain ⟨hs, phase, heq⟩ := h.live w hw
    rw [heq] at hx ⊢
    exact .inl (h.cancelled _ (hi.ctx w hs) (hi.speaker w hs hx))

/-- `launchSpeakerWorkerLocked` keeps the connections. -/
theorem launch_conn (s : Server) (k : ConnId) :
    (s.launchSpeakerWorkerLocked k).connected = s.connected ∧
      (s.launchSpeakerWorkerLocked k).conn = s.conn ∧
      (s.launchSpeakerWorkerLocked k).nextConn = s.nextConn ∧
      (s.launchSpeakerWorkerLocked k).connection = s.connection := by
  rw [Server.launchSpeakerWorkerLocked]
  split <;> exact ⟨rfl, rfl, rfl, rfl⟩

/-- A worker that is alive after `launchSpeakerWorkerLocked` was alive before, or it is the new one,
whose cancel function the speaker stream holds. -/
theorem launch_live (s : Server) (k : ConnId) {w : WorkerId}
    (h : (s.launchSpeakerWorkerLocked k).Live w) :
    (s.Live w ∧ (s.launchSpeakerWorkerLocked k).worker w = s.worker w) ∨
      (((s.launchSpeakerWorkerLocked k).worker w).ctx = s.nextCtx ∧
        ((s.launchSpeakerWorkerLocked k).stream .speaker).cancel = some s.nextCtx ∧
        (s.launchSpeakerWorkerLocked k).nextCtx = s.nextCtx + 1) := by
  by_cases hk : s.hasStream k .speaker
  · rw [Server.launchSpeakerWorkerLocked, if_pos hk] at h ⊢
    obtain ⟨-, hw⟩ | ⟨hl, hw⟩ := Server.live_addWorker h
    · exact .inr ⟨congrArg Worker.ctx hw, rfl, rfl⟩
    · exact .inl ⟨hl, hw⟩
  · rw [Server.launchSpeakerWorkerLocked, if_neg hk] at h ⊢
    exact .inl ⟨h, rfl⟩

theorem launch_nextCtx (s : Server) (k : ConnId) :
    s.nextCtx ≤ (s.launchSpeakerWorkerLocked k).nextCtx := by
  rw [Server.launchSpeakerWorkerLocked]
  split
  · exact Nat.le_succ _
  · exact Nat.le_refl _

theorem launch_cancelled (s : Server) (k : ConnId) {c : CtxId} (hc : c < s.nextCtx) :
    (s.launchSpeakerWorkerLocked k).cancelled c = s.cancelled c := by
  rw [Server.launchSpeakerWorkerLocked]
  split
  · exact s.withCancel_cancelled hc
  · rfl

/-- A commit that finds the controller disconnected loses no speaker worker: every one that is alive
is cancelled. -/
theorem ServerInv.launch (hi : ServerInv s) (hc : s.connected = false) (k : ConnId) :
    ServerInv (({ s with
      connectCancel := none, conn := some k, connected := true } : Server).launchSpeakerWorkerLocked
        k) := by
  generalize hu : ({ s with connectCancel := none, conn := some k, connected := true } : Server) = u
  have hlive {w : WorkerId} (h : u.Live w) : s.Live w ∧ u.worker w = s.worker w := by
    subst hu
    exact ⟨h, rfl⟩
  have hctx : u.nextCtx = s.nextCtx := by subst hu; rfl
  obtain ⟨hn, hk, -⟩ := launch_conn u k
  constructor
  · subst hu
    exact hn.trans (congrArg Option.isSome hk).symm
  · intro h
    subst hu
    exact nomatch (hn.symm.trans h : true = false)
  · intro w hw
    obtain ⟨hl, heq⟩ | ⟨heq, -, hnext⟩ := launch_live u k hw
    · have := hi.ctx w (hlive hl).1
      rw [heq, (hlive hl).2]
      exact Nat.lt_of_lt_of_le (hctx ▸ this) (launch_nextCtx u k)
    · rw [heq, hnext]
      exact Nat.lt_succ_self _
  · intro w hw hx
    obtain ⟨hl, heq⟩ | ⟨heq, hcancel, -⟩ := launch_live u k hw
    · obtain ⟨hs, hws⟩ := hlive hl
      rw [heq, hws] at hx ⊢
      left
      rw [launch_cancelled u k (hctx ▸ hi.ctx w hs)]
      -- nothing is held by a disconnected controller, so the old worker is cancelled
      have hold := hi.speaker w hs hx
      rw [hi.cancel hc] at hold
      have hcanc : u.cancelled = s.cancelled := by subst hu; rfl
      rw [hcanc]
      exact hold.resolve_right nofun
    · exact .inr (by rw [hcancel, heq])

end Server

/-- The invariant of the calls. -/
structure Inv (s : State) : Prop where
  /-- The controller. -/
  server : ServerInv s.server
  /-- The connections. -/
  ledger : Ledger s.server.nextConn (fun k ↦ (s.server.connection k).closed) s.server.conn s.call

theorem inv_initial : Inv initial where
  server := ⟨rfl, fun _ ↦ rfl, fun _ h ↦ absurd h.1 (Nat.not_lt_zero _),
    fun _ h ↦ absurd h.1 (Nat.not_lt_zero _)⟩
  ledger := ⟨nofun, nofun, nofun⟩

theorem Inv.owned {s : State} (h : Inv s) : Owned s :=
  ⟨fun c k hc ↦ (h.ledger.returned c k hc).2, h.server.speaker⟩

/-- A section that owns nothing and moves nothing. -/
theorem Inv.move {s : State} (hi : Inv s) {c : CallId} {r : Server × Phase}
    (hf : Keeps s.server r.1) (hc : (s.call c).holds = none)
    (hc' : ∀ k, s.call c ≠ .returned (some k)) (hp : r.2.holds = none)
    (hp' : ∀ k, r.2 ≠ .returned (some k)) : Inv (s.put c r) where
  server := hi.server.keeps hf
  ledger := by
    have h := hi.ledger.move hc hc' hp hp'
    rw [← hf.nextConn, ← hf.conn, ← funext hf.closed] at h
    exact h

/-- The locked section of `Disconnect` keeps the invariant. -/
theorem Inv.disconnectSection {s : State} (hi : Inv s) {c : CallId} {inner : Bool} (ok : Bool)
    (hc : s.call c = .disconnect inner) :
    Inv (s.put c (s.server.disconnectSection inner ok)) := by
  have hh : (s.call c).holds = none := by rw [hc]; rfl
  have hr : ∀ k, s.call c ≠ .returned (some k) := by simp [hc]
  rw [Server.disconnectSection]
  obtain ⟨-, t, ht, hf⟩ | ⟨hconn, t, dones, ht, hd⟩ := disconnectLocked_cases s.server ok
  · rw [ht]
    refine hi.move hf hh hr ?_ fun k ↦ ?_ <;> cases inner <;> simp [Phase.holds]
  · rw [ht]
    obtain ⟨k, hk⟩ := Option.isSome_iff_exists.1 (hi.server.connected ▸ hconn)
    refine ⟨hi.server.detached hd, ?_⟩
    have h := hi.ledger
    rw [hk] at h
    have h := h.detach hh hr inner dones
    rw [← hd.nextConn, ← hd.conn, ← funext hd.closed, ← hk] at h
    exact h

/-- The close of a connection that a call holds keeps the invariant. -/
theorem Inv.close {s : State} (hi : Inv s) {c : CallId} {k : ConnId} {p : Phase}
    (hc : (s.call c).holds = some k) (hc' : ∀ j, s.call c ≠ .returned (some j))
    (hp : p.holds = none) (hp' : ∀ j, p = .returned (some j) → j = k) :
    Inv (s.put c (s.server.closeConnection k, p)) where
  server := hi.server.closeConnection k
  ledger := by
    have h := hi.ledger.close hc hp hp' hc'
    have hn : (s.server.closeConnection k).nextConn = s.server.nextConn ∧
        (s.server.closeConnection k).conn = s.server.conn := by
      rw [Server.closeConnection]
      split <;> exact ⟨rfl, rfl⟩
    rw [← hn.1, ← hn.2] at h
    simpa only [State.put, Server.closeConnection_closed] using h

/-- A commit that finds the controller disconnected keeps the invariant. -/
theorem Inv.commit {s : State} (hi : Inv s) {c : CallId} {gen : ℕ} {ctx : CtxId} {k : ConnId}
    (hc : s.call c = .dialed gen ctx k)
    (hd : s.server.mayConnect gen ctx = true → s.server.connected = false) :
    Inv (s.put c (s.server.connectCommit gen ctx k, .returned (some k))) := by
  rw [Server.connectCommit]
  split
  · rename_i hmay
    have hdis := hd hmay
    refine ⟨hi.server.launch hdis k, ?_⟩
    have hnone : s.server.conn = none := by
      rw [← Option.not_isSome_iff_eq_none, ← hi.server.connected, hdis]
      decide
    have h := hi.ledger
    rw [hnone] at h
    have h := h.commit hc
    obtain ⟨-, hk, hn, hx⟩ := launch_conn
      ({ s.server with connectCancel := none, conn := some k, connected := true }) k
    simp only [State.put, hk, hn, hx]
    exact h
  · refine hi.close (by rw [hc]; rfl) (by simp [hc]) rfl fun j hj ↦ ?_
    rw [Phase.returned.injEq, Option.some.injEq] at hj
    exact hj.symm

/-- Every section of a call keeps the invariant, a commit on the condition that it finds the
controller disconnected. -/
theorem Inv.advance {s : State} (hi : Inv s) {c : CallId} {ok : Bool} {r : Server × Phase}
    (hcond : CommitsDisconnected s (.advance c ok)) (h : advance s.server ok (s.call c) = some r) :
    Inv (s.put c r) := by
  rcases hc : s.call c with
    _ | inner | ⟨inner, conn, dones⟩ | ⟨inner, dones⟩ | _ | ⟨gen, ctx⟩ | gen | ⟨gen, ctx, k⟩ | conn
  all_goals rw [hc] at h
  case idle => cases h
  case disconnect =>
    cases h
    exact hi.disconnectSection ok hc
  case closing =>
    cases h
    rcases conn with _ | k
    · exact hi.move (Keeps.refl _) (by rw [hc]; rfl) (by simp [hc]) rfl nofun
    · exact hi.close (by rw [hc]; rfl) (by simp [hc]) rfl nofun
  case waiting =>
    rw [Connecting.advance] at h
    split at h <;> cases h
    refine hi.move (Keeps.refl _) (by rw [hc]; rfl) (by simp [hc]) ?_ fun k ↦ ?_ <;>
      cases inner <;> simp [Phase.holds]
  case relock =>
    cases h
    exact hi.move (Keeps.connectBegin _) (by rw [hc]; rfl) (by simp [hc]) rfl nofun
  case dialing =>
    rw [Connecting.advance] at h
    split at h <;> cases h
    · refine ⟨hi.server.dialConnection, ?_⟩
      have h := hi.ledger.dial gen ctx (by rw [hc]; rfl) (by simp [hc])
      rw [← funext (dialConnection_closed s.server)] at h
      exact h
    · exact hi.move (Keeps.refl _) (by rw [hc]; rfl) (by simp [hc]) rfl nofun
  case dialFailed =>
    cases h
    exact hi.move (Keeps.connectFailed ..) (by rw [hc]; rfl) (by simp [hc]) rfl nofun
  case dialed =>
    cases h
    exact hi.commit hc (hcond gen ctx k hc)
  case returned => cases h

/-- **One step** of a call or a worker keeps the invariant. -/
theorem Inv.step {s t : State} {e : Event} (hcond : CommitsDisconnected s e) (hi : Inv s)
    (h : step s e = some t) : Inv t := by
  rcases e with c | c | ⟨c, ok⟩ | ⟨w, ok⟩
  · rw [Connecting.step] at h
    split at h <;> cases h
    rename_i hc
    obtain ⟨hh, hr⟩ := connectEnter_phase s.server
    exact hi.move (Keeps.connectEnter _) (by rw [hc]; rfl) (by simp [hc]) hh hr
  · rw [Connecting.step] at h
    split at h <;> cases h
    rename_i hc
    exact hi.move (Keeps.refl _) (by rw [hc]; rfl) (by simp [hc]) rfl nofun
  · rw [Connecting.step, Option.map_eq_some_iff] at h
    obtain ⟨r, hr, rfl⟩ := h
    exact hi.advance hcond hr
  · rw [Connecting.step, Option.map_eq_some_iff] at h
    obtain ⟨server, hs, rfl⟩ := h
    have hf := Keeps.workerStep hs
    refine ⟨hi.server.keeps hf, ?_⟩
    have h := hi.ledger
    rw [← hf.nextConn, ← hf.conn, ← funext hf.closed] at h
    exact h

/-- A commit that replaces the connection of another `Connect` loses that connection. -/
theorem Inv.not_owned {s : State} {e : Event} (hi : Inv s) (h : ¬CommitsDisconnected s e) :
    ∃ t, Connecting.step s e = some t ∧ ¬Owned t := by
  rcases e with c | c | ⟨c, ok⟩ | ⟨w, ok⟩
  case advance =>
    simp only [CommitsDisconnected, not_forall, Bool.not_eq_false] at h
    obtain ⟨gen, ctx, k, hc, hmay, hconn⟩ := h
    refine ⟨s.put c (s.server.connectCommit gen ctx k, .returned (some k)), ?_, fun ho ↦ ?_⟩
    · rw [Connecting.step, hc]
      rfl
    obtain ⟨j, hj⟩ := Option.isSome_iff_exists.1 (hi.server.connected ▸ hconn)
    obtain ⟨-, hopen, d, hd⟩ := hi.ledger.current j hj
    have hjk : k ≠ j := by
      rintro rfl
      exact (hi.ledger.held c k (by rw [hc]; rfl)).2.2.1 hj
    obtain ⟨-, hk, -, hx⟩ := launch_conn
      ({ s.server with connectCancel := none, conn := some k, connected := true }) k
    -- the connection `j` of the call `d` is neither current, nor closed, nor in other hands
    have hlost := ho.conn d j (update_eq (by simp [hc]) hd)
    simp only [State.put, Server.connectCommit, hmay, if_true, hk, hx, hopen] at hlost
    obtain hcur | hclosed | ⟨f, inner, dones, hf⟩ := hlost
    · exact hjk (Option.some.inj hcur)
    · cases hclosed
    · obtain ⟨-, hf⟩ := eq_of_update (by simp) hf
      exact (hi.ledger.held f j (by rw [hf]; rfl)).2.2.1 hj
  all_goals exact absurd trivial h

/-- **Ownership of connections and speaker workers.** Throughout a run no connection and no speaker
worker is lost, exactly when every commit of a `Connect` finds the controller disconnected. -/
theorem connection_ownership (es : List Event) :
    (∀ fs t, fs <+: es → exec step initial fs = some t → Owned t) ↔
      Along step CommitsDisconnected initial es :=
  throughout_iff_along (C := CommitsDisconnected) (I := Inv) (P := Owned) (fun _ ↦ Inv.owned)
    (fun _ _ _ hC hi h ↦ hi.step hC h) (fun _ _ hi hC ↦ hi.not_owned hC) inv_initial

/-- A second `Connect` commits while the first waits for its inner `Disconnect`. -/
def replacingSchedule : List Event :=
  -- a session with connection 0 and worker 0
  [.connect 0, .advance 0 true, .advance 0 true,
   -- call 1 disconnects it, and waits for worker 0
   .connect 1, .advance 1 true, .advance 1 true,
   -- call 2 finds the controller disconnected, and commits connection 1 with worker 1
   .connect 2, .advance 2 true, .advance 2 true,
   .worker 0 true, .worker 0 true, .worker 0 true, .worker 0 true,
   -- call 1 goes on, and commits connection 2
   .advance 1 true, .advance 1 true, .advance 1 true, .advance 1 true]

/-- All three calls have returned, connection 1 is neither current nor closed, and nothing can
cancel its speaker worker. -/
theorem connect_replaces_connection :
    ∃ s, exec step initial replacingSchedule = some s ∧
      s.call 2 = .returned (some 1) ∧
      s.server.conn = some 2 ∧ (s.server.connection 1).closed = false ∧ ¬BeingClosed s 1 ∧
      s.server.Live 1 ∧ (s.server.worker 1).stream = .speaker ∧
      s.server.cancelled (s.server.worker 1).ctx = false ∧
      (s.server.stream .speaker).cancel ≠ some (s.server.worker 1).ctx := by
  refine ⟨_, rfl, rfl, rfl, rfl, ?_, by decide, rfl, rfl, by decide⟩
  rintro ⟨d, inner, dones, hd⟩
  rcases d with _ | _ | _ | d <;> cases hd

end AllRelay.Connecting
