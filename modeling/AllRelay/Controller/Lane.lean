import AllRelay.Controller.State

/-!
# One stream of a session, abstractly

A `Lane` is what the calls and workers of one stream share: the `StreamController`, the socket slot,
the live workers, and for each call that waits or dials the **claim** it made, that is the
generation it took. The operations below are what a section may do to a lane; which section does
what is the business of `Controller.SessionLanes`.

* A section that takes a generation (`supersede`) empties the slot, so a claim of the latest
  generation knows that the stream is inactive, that the slot is empty and whose `done` channel it
  has to wait for (`LaneInv.latest`). Every other claim is stale and its sections do nothing.
* A worker is launched (`commit`) only through a claim of the latest generation that has no worker
  to wait for, so at most one worker is alive (`LaneInv.unique`).
-/

namespace AllRelay

/-- What a call waits for. -/
inductive ClaimKind where
  /-- ON waits for the previous worker. -/
  | join
  /-- ON dials. -/
  | dial
  /-- OFF waits for the worker. -/
  | stop
deriving DecidableEq, Repr

/-- The claim of a call on a stream. -/
structure Claim where
  /-- What the call waits for. -/
  kind : ClaimKind
  /-- The generation that the call took. -/
  gen : ℕ
  /-- The worker that it waits for. -/
  done : Option WorkerId
deriving DecidableEq, Repr

/-- One stream of a session. -/
structure Lane where
  /-- The connection, none once the controller is disconnected. -/
  conn : Option ConnId
  /-- The controller of the stream. -/
  sc : StreamController
  /-- The socket slot. -/
  slot : Option SocketId
  /-- The live workers. -/
  live : WorkerId → Option Worker
  /-- The claims of the calls. -/
  claim : ℕ → Option Claim

/-- A worker whose cleanup section is still to come. -/
def WorkerPhase.beforeCleanup : WorkerPhase → Bool
  | .cancelling | .closingDone | .exited => false
  | _ => true

/-- A worker that has not closed its socket yet. -/
def WorkerPhase.hasSocket : WorkerPhase → Bool
  | .running | .endingSession | .closingControl | .closingStream => true
  | _ => false

/-- A phase that only screen workers go through. -/
def WorkerPhase.screenOnly : WorkerPhase → Bool
  | .endingSession | .closingControl | .closingStream => true
  | _ => false

/-- The invariant of a lane. -/
structure LaneInv (l : Lane) : Prop where
  /-- At most one worker is alive. -/
  unique : ∀ v w a b, l.live v = some a → l.live w = some b → v = w
  /-- During the session the stream holds the `done` channel of a live worker. -/
  done : l.conn.isSome → ∀ w a, l.live w = some a → l.sc.done = some w
  /-- An active stream has a worker of its generation that will find itself in its cleanup, and the
  worker's socket is in the slot until it closes it. -/
  active : l.sc.active = true → l.sc.running = true ∧
    ∃ w a, l.live w = some a ∧ l.conn = some a.conn ∧ a.gen = l.sc.gen ∧
      (a.stream = .screen → a.hubGen = l.sc.hubGen) ∧ a.phase.beforeCleanup = true ∧
      (a.phase.hasSocket = true → a.socket.isSome ∧ l.slot = a.socket)
  /-- During the session only an active stream has a socket. -/
  slot : l.conn.isSome → l.slot.isSome → l.sc.active = true
  /-- A screen worker closes its socket before its cleanup. -/
  cleanup : ∀ w a, l.live w = some a → a.stream = .screen → a.phase = .cleanup → l.slot = none
  /-- Only a screen worker goes through the phases of its exit. -/
  exit : ∀ w a, l.live w = some a → a.phase.screenOnly = true → a.stream = .screen
  /-- During the session a worker that has its socket keeps its stream running. -/
  alive : l.conn.isSome → ∀ w a, l.live w = some a → a.phase.hasSocket = true → l.sc.running = true
  /-- A stream that runs without being active is being stopped or restarted. -/
  running : l.sc.running = true → l.sc.active = true ∨
    ∃ c q, l.claim c = some q ∧ q.gen = l.sc.gen ∧ q.kind ≠ .dial
  /-- A claim took its generation from the stream. -/
  taken : ∀ c q, l.claim c = some q → q.gen ≤ l.sc.gen
  /-- A generation is taken once. -/
  distinct : ∀ c d q r, l.claim c = some q → l.claim d = some r → q.gen = r.gen → c = d
  /-- After a `Disconnect` every claim is stale. -/
  stale : l.conn = none → ∀ c q, l.claim c = some q → q.gen < l.sc.gen
  /-- What a claim of the latest generation knows. -/
  latest : l.conn.isSome → ∀ c q, l.claim c = some q → q.gen = l.sc.gen →
    l.sc.done = q.done ∧ l.sc.active = false ∧ l.slot = none
  /-- A dial has no worker to wait for. -/
  dial : ∀ c q, l.claim c = some q → q.kind = .dial → q.done = none

namespace Lane

/-! ### What a section does to a lane -/

/-- A call takes the next generation, empties the slot, and may go on with a claim. -/
def supersede (l : Lane) (c : ℕ) (q : Option Claim) (cancel : Option CtxId) (hubGen : ℕ) : Lane :=
  { l with
    sc := { l.sc with active := false, cancel, hubGen, gen := l.sc.gen + 1 }
    slot := none
    claim := Function.update l.claim c q }

/-- A call whose wait is over forgets the worker. -/
def settle (l : Lane) (c : ℕ) : Lane :=
  { l with
    sc := { l.sc with done := none, running := false }
    claim := Function.update l.claim c none }

/-- A call gives up the stream. -/
def abort (l : Lane) (c : ℕ) : Lane :=
  { l with
    sc := { l.sc with active := false, running := false, cancel := none }
    claim := Function.update l.claim c none }

/-- A call returns. -/
def release (l : Lane) (c : ℕ) : Lane :=
  { l with claim := Function.update l.claim c none }

/-- A call launches a worker. -/
def commit (l : Lane) (c : ℕ) (w : WorkerId) (a : Worker) (hubGen : ℕ) : Lane :=
  { l with
    sc := { l.sc with running := true, active := true, done := some w, hubGen }
    slot := a.socket
    live := Function.update l.live w (some a)
    claim := Function.update l.claim c none }

/-- A worker goes on, or exits, and may empty the slot. -/
def progress (l : Lane) (w : WorkerId) (a : Option Worker) (slot : Option SocketId) : Lane :=
  { l with slot, live := Function.update l.live w a }

/-- The close of the connection empties the slot. -/
def empty (l : Lane) : Lane :=
  { l with slot := none }

/-- The cleanup of a worker of the current generation. -/
def stop (l : Lane) (hubGen : ℕ) : Lane :=
  { l with sc := { l.sc with running := false, active := false, hubGen }, slot := none }

/-- `Disconnect`. -/
def detach (l : Lane) (hubGen : ℕ) : Lane :=
  { l with conn := none, sc := { l.sc.disconnected with hubGen } }

end Lane

/-! ### The operations keep the invariant -/

namespace LaneInv

variable {l : Lane} {c : ℕ}

/-- A section that takes the next generation makes every other claim stale. -/
theorem supersede (h : LaneInv l) {q : Option Claim}
    (hq : ∀ r, q = some r → r.gen = l.sc.gen + 1 ∧ r.done = l.sc.done ∧
      (r.kind = .dial → r.done = none))
    (hconn : ∀ r, q = some r → l.conn.isSome)
    (hrun : l.sc.running = true → ∃ r, q = some r ∧ r.kind ≠ .dial)
    (cancel : Option CtxId) (hubGen : ℕ) : LaneInv (l.supersede c q cancel hubGen) := by
  -- a claim of the new lane is the new one, or an old one, which is stale now
  have claim {d : ℕ} {r : Claim} (hd : (l.supersede c q cancel hubGen).claim d = some r) :
      (d = c ∧ q = some r) ∨ (d ≠ c ∧ l.claim d = some r ∧ r.gen < l.sc.gen + 1) := by
    by_cases hdc : d = c
    · subst hdc
      have hd : Function.update l.claim d q d = some r := hd
      exact .inl ⟨rfl, by rwa [Function.update_self] at hd⟩
    · have hd : l.claim d = some r := (Function.update_of_ne hdc ..).symm.trans hd
      exact .inr ⟨hdc, hd, Nat.lt_succ_of_le (h.taken d r hd)⟩
  exact {
    unique := h.unique
    done := h.done
    active := nofun
    slot := fun _ hs ↦ nomatch hs
    cleanup := fun _ _ _ _ _ ↦ rfl
    exit := h.exit
    alive := h.alive
    running := fun hr ↦ by
      obtain ⟨r, hr, hk⟩ := hrun hr
      exact .inr ⟨c, r, (Function.update_self ..).trans hr, (hq r hr).1, hk⟩
    taken := fun d r hd ↦ by
      obtain ⟨-, hr⟩ | ⟨-, -, hlt⟩ := claim hd
      · exact Nat.le_of_eq (hq r hr).1
      · exact Nat.le_of_lt hlt
    distinct := fun d e r r' hd he heq ↦ by
      obtain ⟨rfl, hr⟩ | ⟨-, hd, hlt⟩ := claim hd <;> obtain ⟨rfl, hr'⟩ | ⟨-, he, hlt'⟩ := claim he
      · rfl
      · exact absurd hlt' (by rw [← heq, (hq r hr).1]; exact Nat.lt_irrefl _)
      · exact absurd hlt (by rw [heq, (hq r' hr').1]; exact Nat.lt_irrefl _)
      · exact h.distinct d e r r' hd he heq
    stale := fun hn d r hd ↦ by
      obtain ⟨-, hr⟩ | ⟨-, -, hlt⟩ := claim hd
      · have hs := hconn r hr
        rw [show l.conn = none from hn] at hs
        cases hs
      · exact hlt
    latest := fun _ d r hd hg ↦ by
      obtain ⟨-, hr⟩ | ⟨-, -, hlt⟩ := claim hd
      · exact ⟨(hq r hr).2.1.symm, rfl, rfl⟩
      · exact absurd hg (Nat.ne_of_lt hlt)
    dial := fun d r hd hk ↦ by
      obtain ⟨-, hr⟩ | ⟨-, hd, -⟩ := claim hd
      · exact (hq r hr).2.2 hk
      · exact h.dial d r hd hk }

/-- Dropping the claim of a call keeps what the other claims say. -/
theorem claim_release {d : ℕ} {r : Claim} (hd : Function.update l.claim c none d = some r) :
    d ≠ c ∧ l.claim d = some r := by
  have hdc : d ≠ c := by rintro rfl; simp at hd
  exact ⟨hdc, by rwa [Function.update_of_ne hdc] at hd⟩

/-- A wait is over: the worker that the stream held has exited. -/
theorem settle (h : LaneInv l) {q : Claim} (hc : l.claim c = some q) (hg : q.gen = l.sc.gen)
    (hjoined : ∀ w, q.done = some w → l.live w = none) : LaneInv (l.settle c) := by
  have hconn : l.conn.isSome := by
    by_contra hn
    exact absurd hg (Nat.ne_of_lt (h.stale (Option.not_isSome_iff_eq_none.1 hn) c q hc))
  obtain ⟨hdone, hactive, hslot⟩ := h.latest hconn c q hc hg
  have hdead (w : WorkerId) : l.live w = none := by
    by_contra hw
    obtain ⟨a, ha⟩ := Option.ne_none_iff_exists'.1 hw
    exact hw (hjoined w (hdone.symm.trans (h.done hconn w a ha)))
  have dead {p : Prop} {w : WorkerId} {a : Worker} (hw : (l.settle c).live w = some a) : p :=
    nomatch (hdead w).symm.trans hw
  exact {
    unique := h.unique
    done := fun _ _ _ hw ↦ dead hw
    active := fun ha ↦ nomatch hactive.symm.trans ha
    slot := fun hk hs ↦ h.slot hk hs
    cleanup := h.cleanup
    exit := h.exit
    alive := fun _ _ _ hw ↦ dead hw
    running := nofun
    taken := fun d r hd ↦ h.taken d r (claim_release hd).2
    distinct := fun d e r r' hd he ↦ h.distinct d e r r' (claim_release hd).2 (claim_release he).2
    stale := fun hn d r hd ↦ h.stale hn d r (claim_release hd).2
    latest := fun _ d r hd hr ↦ by
      obtain ⟨hdc, hd⟩ := claim_release hd
      exact absurd (h.distinct d c r q hd hc (hr.trans hg.symm)) hdc
    dial := fun d r hd ↦ h.dial d r (claim_release hd).2 }

/-- A call that has no worker to wait for gives up the stream of its generation. -/
theorem abort (h : LaneInv l) {q : Claim} (hc : l.claim c = some q) (hg : q.gen = l.sc.gen)
    (hd : q.done = none) : LaneInv (l.abort c) where
  unique := h.unique
  done := h.done
  active := nofun
  slot hk hs := by
    have hnone : (l.abort c).slot = none := (h.latest hk c q hc hg).2.2
    rw [hnone] at hs
    cases hs
  cleanup := h.cleanup
  exit := h.exit
  alive hk w a hw _ := by
    cases ((h.latest hk c q hc hg).1.trans hd).symm.trans (h.done hk w a hw)
  running := nofun
  taken d r hd := h.taken d r (claim_release hd).2
  distinct d e r r' hd he := h.distinct d e r r' (claim_release hd).2 (claim_release he).2
  stale hn d r hd := h.stale hn d r (claim_release hd).2
  latest _ d r hd hr := by
    obtain ⟨hdc, hd⟩ := claim_release hd
    exact absurd (h.distinct d c r q hd hc (hr.trans hg.symm)) hdc
  dial d r hd := h.dial d r (claim_release hd).2

/-- A call returns, with a claim that is stale or none. -/
theorem release (h : LaneInv l) (hc : ∀ q, l.claim c = some q → q.gen ≠ l.sc.gen) :
    LaneInv (l.release c) where
  unique := h.unique
  done := h.done
  active := h.active
  slot := h.slot
  cleanup := h.cleanup
  exit := h.exit
  alive := h.alive
  running hr := by
    refine (h.running hr).imp_right ?_
    rintro ⟨d, q, hd, hg, hk⟩
    have hdc : d ≠ c := by rintro rfl; exact hc q hd hg
    exact ⟨d, q, (Function.update_of_ne hdc ..).trans hd, hg, hk⟩
  taken d r hd := h.taken d r (claim_release hd).2
  distinct d e r r' hd he := h.distinct d e r r' (claim_release hd).2 (claim_release he).2
  stale hn d r hd := h.stale hn d r (claim_release hd).2
  latest hk d r hd := h.latest hk d r (claim_release hd).2
  dial d r hd := h.dial d r (claim_release hd).2

/-- The launch of a worker through a dial of the latest generation. -/
theorem commit (h : LaneInv l) {q : Claim} {w : WorkerId} {a : Worker} {hubGen : ℕ}
    (hc : l.claim c = some q) (hg : q.gen = l.sc.gen) (hk : q.kind = .dial)
    (hconn : l.conn = some a.conn) (hagen : a.gen = l.sc.gen)
    (hhub : a.stream = .screen → a.hubGen = hubGen) (hphase : a.phase = .running)
    (hsocket : a.socket.isSome) : LaneInv (l.commit c w a hubGen) := by
  have hsome : l.conn.isSome := by rw [hconn]; rfl
  have hnone := (h.latest hsome c q hc hg).1.trans (h.dial c q hc hk)
  -- the claim has nobody to wait for, so the new worker is the only live one
  have hlive {v : WorkerId} {b : Worker} (hv : (l.commit c w a hubGen).live v = some b) :
      v = w ∧ b = a := by
    by_cases hvw : v = w
    · subst hvw
      have hv : Function.update l.live v (some a) v = some b := hv
      rw [Function.update_self, Option.some.injEq] at hv
      exact ⟨rfl, hv.symm⟩
    · have hv : l.live v = some b := (Function.update_of_ne hvw ..).symm.trans hv
      exact nomatch hnone.symm.trans (h.done hsome v b hv)
  exact {
    unique := fun v u _ _ hv hu ↦ (hlive hv).1.trans (hlive hu).1.symm
    done := fun _ v b hv ↦ congrArg some (hlive hv).1.symm
    active := fun _ ↦ ⟨rfl, w, a, Function.update_self .., hconn, hagen, hhub,
      by rw [hphase]; rfl, fun _ ↦ ⟨hsocket, rfl⟩⟩
    slot := fun _ _ ↦ rfl
    cleanup := fun v b hv _ hb ↦ by
      rw [(hlive hv).2, hphase] at hb
      cases hb
    exit := fun v b hv hb ↦ by
      rw [(hlive hv).2, hphase] at hb
      cases hb
    alive := fun _ _ _ _ _ ↦ rfl
    running := fun _ ↦ .inl rfl
    taken := fun d r hd ↦ h.taken d r (claim_release hd).2
    distinct := fun d e r r' hd he ↦ h.distinct d e r r' (claim_release hd).2 (claim_release he).2
    stale := fun hn d r hd ↦ h.stale hn d r (claim_release hd).2
    latest := fun _ d r hd hr ↦ by
      obtain ⟨hdc, hd⟩ := claim_release hd
      exact absurd (h.distinct d c r q hd hc (hr.trans hg.symm)) hdc
    dial := fun d r hd ↦ h.dial d r (claim_release hd).2 }

/-- `Disconnect` makes every claim stale. -/
theorem detach (h : LaneInv l) (hubGen : ℕ) : LaneInv (l.detach hubGen) where
  unique := h.unique
  done := nofun
  active := nofun
  slot := nofun
  cleanup := h.cleanup
  exit := h.exit
  alive := nofun
  running := nofun
  taken d r hd := Nat.le_succ_of_le (h.taken d r hd)
  distinct := h.distinct
  stale _ d r hd := Nat.lt_succ_of_le (h.taken d r hd)
  latest := nofun
  dial := h.dial

/-- The connection is closed after the `Disconnect`. -/
theorem empty (h : LaneInv l) (hn : l.conn = none) : LaneInv l.empty where
  unique := h.unique
  done := h.done
  active ha := by
    obtain ⟨-, w, a, -, hc, -⟩ := h.active ha
    exact nomatch hn.symm.trans hc
  slot _ hs := nomatch hs
  cleanup _ _ _ _ _ := rfl
  exit := h.exit
  alive := h.alive
  running := h.running
  taken := h.taken
  distinct := h.distinct
  stale := h.stale
  latest hk d r hd hr := by
    have hnone : l.empty.conn = none := hn
    rw [hnone] at hk
    cases hk
  dial := h.dial

/-- The cleanup of the current worker. -/
theorem stop (h : LaneInv l) {w : WorkerId} {a : Worker} (hw : l.live w = some a)
    (ha : a.phase = .cleanup) (hubGen : ℕ) : LaneInv (l.stop hubGen) where
  unique := h.unique
  done := h.done
  active := nofun
  slot _ hs := nomatch hs
  cleanup _ _ _ _ _ := rfl
  exit := h.exit
  alive _ v b hv hb := by
    obtain rfl := h.unique v w b a hv hw
    obtain rfl : b = a := Option.some.inj (hv.symm.trans hw)
    rw [ha] at hb
    cases hb
  running := nofun
  taken := h.taken
  distinct := h.distinct
  stale := h.stale
  latest hk c q hc hg := ⟨(h.latest hk c q hc hg).1, rfl, rfl⟩
  dial := h.dial

/-- A worker that leaves an active stream still has its cleanup before it, and its socket as long as
the slot has it. -/
theorem progress (h : LaneInv l) {w : WorkerId} {a : Worker} (hw : l.live w = some a)
    {b : Option Worker} {slot : Option SocketId}
    (hb : ∀ a', b = some a' → ∃ phase, a' = { a with phase })
    (hslot : slot = l.slot ∨ slot = none)
    (hsocket : ∀ a', b = some a' → a'.phase.hasSocket = true → a.phase.hasSocket = true)
    (hactive : l.sc.active = true → ∃ a', b = some a' ∧ a'.phase.beforeCleanup = true ∧
      (a'.phase.hasSocket = true → slot = l.slot))
    (hclean : ∀ a', b = some a' → a'.stream = .screen → a'.phase = .cleanup → slot = none)
    (hexit : ∀ a', b = some a' → a'.phase.screenOnly = true → a'.stream = .screen) :
    LaneInv (l.progress w b slot) := by
  have hlive {v : WorkerId} {a' : Worker} (hv : (l.progress w b slot).live v = some a') :
      (v = w ∧ b = some a') ∨ l.live v = some a' := by
    by_cases hvw : v = w
    · subst hvw
      have hv : Function.update l.live v b v = some a' := hv
      exact .inl ⟨rfl, by rwa [Function.update_self] at hv⟩
    · exact .inr ((Function.update_of_ne hvw ..).symm.trans hv)
  -- a live worker of the new lane was alive before
  have hold {v : WorkerId} {a' : Worker} (hv : (l.progress w b slot).live v = some a') :
      ∃ a'', l.live v = some a'' := by
    obtain ⟨rfl, -⟩ | hv := hlive hv
    · exact ⟨a, hw⟩
    · exact ⟨a', hv⟩
  have hsome (hs : slot.isSome) : l.slot.isSome := by
    obtain rfl | rfl := hslot
    · exact hs
    · cases hs
  exact {
    unique := fun v u a' b' hv hu ↦ by
      obtain ⟨a'', hv⟩ := hold hv
      obtain ⟨b'', hu⟩ := hold hu
      exact h.unique v u a'' b'' hv hu
    done := fun hk v a' hv ↦ by
      obtain ⟨a'', hv⟩ := hold hv
      exact h.done hk v a'' hv
    active := fun ha ↦ by
      obtain ⟨hrun, v, a', hv, hconn, hgen, hhub, -, hsock⟩ := h.active ha
      obtain rfl := h.unique v w a' a hv hw
      obtain rfl : a' = a := Option.some.inj (hv.symm.trans hw)
      obtain ⟨a'', rfl, hbefore, hkeep⟩ := hactive ha
      obtain ⟨phase, rfl⟩ := hb a'' rfl
      refine ⟨hrun, v, _, Function.update_self .., hconn, hgen, hhub, hbefore, fun hs ↦ ?_⟩
      have hs' := hsock (hsocket _ rfl hs)
      exact ⟨hs'.1, (hkeep hs).trans hs'.2⟩
    slot := fun hk hs ↦ h.slot hk (hsome hs)
    cleanup := fun v a' hv hx hp ↦ by
      obtain ⟨-, hb'⟩ | hv := hlive hv
      · exact hclean a' hb' hx hp
      · have hnone := h.cleanup v a' hv hx hp
        obtain rfl | rfl := hslot
        · exact hnone
        · rfl
    exit := fun v a' hv hp ↦ by
      obtain ⟨-, hb'⟩ | hv := hlive hv
      · exact hexit a' hb' hp
      · exact h.exit v a' hv hp
    alive := fun hk v a' hv hp ↦ by
      obtain ⟨-, hb'⟩ | hv := hlive hv
      · exact h.alive hk w a hw (hsocket a' hb' hp)
      · exact h.alive hk v a' hv hp
    running := h.running
    taken := h.taken
    distinct := h.distinct
    stale := h.stale
    latest := fun hk c q hc hg ↦ by
      obtain ⟨hdone, hact, hnone⟩ := h.latest hk c q hc hg
      refine ⟨hdone, hact, ?_⟩
      obtain rfl | rfl := hslot
      · exact hnone
      · rfl
    dial := h.dial }

/-- An active stream's worker finds itself current in its cleanup. -/
theorem current (h : LaneInv l) {w : WorkerId} {a : Worker} (hw : l.live w = some a)
    (ha : l.sc.active = true) : l.sc.running = true ∧ l.sc.gen = a.gen ∧ l.conn = some a.conn ∧
      (a.stream = .screen → l.sc.hubGen = a.hubGen) ∧ a.phase.beforeCleanup = true := by
  obtain ⟨hrun, v, b, hv, hconn, hgen, hhub, hbefore, -⟩ := h.active ha
  obtain rfl := h.unique v w b a hv hw
  obtain rfl : b = a := Option.some.inj (hv.symm.trans hw)
  exact ⟨hrun, hgen.symm, hconn, fun hx ↦ (hhub hx).symm, hbefore⟩

end LaneInv

end AllRelay
