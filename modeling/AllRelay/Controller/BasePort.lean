import AllRelay.Controller.State
import AllRelay.Library.LabelledSystem
import Mathlib.Algebra.Group.Int.Defs

/-!
# The base port of a session

The phone listens on a base port plus a fixed offset for each stream. The port of a request to
`/api/connect` is an `int`. `Connect` dials the speaker with it, and keeps it for the streams and
the control sockets that are dialed later; both paths convert it to 16 bits. Only the first one has
a default for the port 0, and nothing checks the range.

The two paths agree on a base port for the ports from 1 to 65531 and for no others
(`base_port_agreement`).
-/

open LabelledSystem

namespace AllRelay.BasePort

/-- `DefaultBasePort`. -/
def defaultBasePort : UInt16 := 5000

/-- What is added to the base port. -/
def offset : StreamId → UInt16
  | .screen => 0
  | .camera => 1
  | .mic => 2
  | .speaker => 3
  | .control => 4

/-- The port that `ConnectContext` dials for a stream. -/
def connectContext (basePort : UInt16) (x : StreamId) : UInt16 :=
  (if basePort = 0 then defaultBasePort else basePort) + offset x

/-- The port that `ConnectStreamPortContext` dials for a stream. -/
def connectStreamPort (basePort : UInt16) (x : StreamId) : UInt16 :=
  basePort + offset x

/-- The handler decodes the port: it has to fit an `int`. -/
def accepts (port : ℤ) : Bool :=
  -2 ^ 63 ≤ port && port < 2 ^ 63

/-! ### The dials of a session -/

/-- The arguments of a call of `Connect`. -/
structure Target where
  host : String
  port : ℤ
deriving DecidableEq, Repr

/-- A dial that is on its way, with the host and port that its goroutine has read. -/
structure Pending where
  /-- The call of `Connect` that the session began with. -/
  session : ℕ
  stream : StreamId
  target : Target
deriving DecidableEq, Repr

/-- A dial. -/
structure Dial where
  session : ℕ
  stream : StreamId
  host : String
  port : UInt16
deriving DecidableEq, Repr

/-- The controller. -/
structure State where
  /-- History: the calls of `Connect`. -/
  calls : List Target
  /-- The call whose dial has not been committed yet. -/
  connecting : Option ℕ
  /-- The call that has connected. -/
  session : Option ℕ
  /-- `host` and `port`. -/
  target : Target
  pending : List Pending
  /-- History: the dials. -/
  dials : List Dial
deriving DecidableEq, Repr

/-- The controller at first. -/
def init : State := ⟨[], none, none, ⟨"", 0⟩, [], []⟩

/-- The steps. -/
inductive Label where
  /-- A request to `/api/connect`. -/
  | connect (target : Target)
  /-- `Connect` has dialed the speaker and commits. -/
  | commit
  /-- `Disconnect`. -/
  | disconnect
  /-- `startStream` reads host and port. -/
  | start (x : StreamId)
  /-- A pending dial; a screen that was dialed opens its control socket next. -/
  | dial (i : ℕ) (launched : Bool)
deriving DecidableEq, Repr

namespace State

/-- `Connect` disconnects and dials the speaker. -/
def connect (s : State) (target : Target) : State :=
  { s with
    calls := s.calls ++ [target]
    connecting := some s.calls.length
    session := none
    target := ⟨"", 0⟩
    dials := s.dials ++
      [⟨s.calls.length, .speaker, target.host, connectContext (.ofInt target.port) .speaker⟩] }

/-- A pending dial is made. -/
def dial (s : State) (i : ℕ) (launched : Bool) (p : Pending) : State :=
  { s with
    pending := s.pending.eraseIdx i ++
      (if launched ∧ p.stream = .screen then [⟨p.session, .control, p.target⟩] else [])
    dials := s.dials ++
      [⟨p.session, p.stream, p.target.host, connectStreamPort (.ofInt p.target.port) p.stream⟩] }

end State

/-- One step. -/
def step (s : State) : Label → Option State
  | .connect target => if accepts target.port then some (s.connect target) else none
  | .commit => s.connecting.bind fun n ↦ s.calls[n]?.map fun target ↦
      { s with connecting := none, session := some n, target }
  | .disconnect => some { s with connecting := none, session := none, target := ⟨"", 0⟩ }
  | .start x => if x = .control then none else s.session.map fun n ↦
      { s with pending := s.pending ++ [⟨n, x, s.target⟩] }
  | .dial i launched => s.pending[i]?.map (s.dial i launched)

/-! ### The invariant -/

variable {s t : State}

/-- A dial goes to the target of its session, by one of the two paths. -/
def Dial.Follows (calls : List Target) (d : Dial) : Prop :=
  ∃ target, calls[d.session]? = some target ∧ accepts target.port = true ∧
    d.host = target.host ∧
      (d.stream = .speaker ∧ d.port = connectContext (.ofInt target.port) .speaker ∨
        d.port = connectStreamPort (.ofInt target.port) d.stream)

/-- What holds between any two steps. -/
structure Inv (s : State) : Prop where
  accepted : ∀ target ∈ s.calls, accepts target.port = true
  session : ∀ n ∈ s.session, s.calls[n]? = some s.target
  pending : ∀ p ∈ s.pending, s.calls[p.session]? = some p.target
  dials : ∀ d ∈ s.dials, d.Follows s.calls

theorem inv_init : Inv init where
  accepted _ h := absurd h List.not_mem_nil
  session _ h := absurd h.symm (Option.some_ne_none _)
  pending _ h := absurd h List.not_mem_nil
  dials _ h := absurd h List.not_mem_nil

theorem Dial.Follows.append {calls : List Target} {d : Dial} (h : d.Follows calls)
    (target : Target) : d.Follows (calls ++ [target]) := by
  obtain ⟨target', hcall, hrest⟩ := h
  refine ⟨target', ?_, hrest⟩
  rw [List.getElem?_append_left (List.getElem?_eq_some_iff.1 hcall).1]
  exact hcall

namespace Inv

theorem connect (hs : Inv s) {target : Target} (h : accepts target.port = true) :
    Inv (s.connect target) where
  accepted target' h' := by
    obtain h' | h' := List.mem_append.1 h'
    · exact hs.accepted target' h'
    · exact List.mem_singleton.1 h' ▸ h
  session _ h := absurd h.symm (Option.some_ne_none _)
  pending p hp := by
    have hcall := hs.pending p hp
    show (s.calls ++ [target])[p.session]? = _
    rw [List.getElem?_append_left (List.getElem?_eq_some_iff.1 hcall).1]
    exact hcall
  dials d hd := by
    obtain hd | hd := List.mem_append.1 hd
    · exact (hs.dials d hd).append target
    · rw [List.mem_singleton.1 hd]
      exact ⟨target, List.getElem?_concat_length, h, rfl, .inl ⟨rfl, rfl⟩⟩

theorem dial (hs : Inv s) {i : ℕ} {p : Pending} (launched : Bool) (hp : s.pending[i]? = some p) :
    Inv (s.dial i launched p) where
  accepted := hs.accepted
  session := hs.session
  pending q hq := by
    obtain hq | hq := List.mem_append.1 hq
    · exact hs.pending q (List.mem_of_mem_eraseIdx hq)
    · split at hq
      · rw [List.mem_singleton.1 hq]
        exact hs.pending p (List.mem_of_getElem? hp)
      · exact absurd hq List.not_mem_nil
  dials d hd := by
    obtain hd | hd := List.mem_append.1 hd
    · exact hs.dials d hd
    · have hcall := hs.pending p (List.mem_of_getElem? hp)
      rw [List.mem_singleton.1 hd]
      exact ⟨p.target, hcall, hs.accepted _ (List.mem_of_getElem? hcall), rfl, .inr rfl⟩

theorem step (hs : Inv s) {l : Label} (h : BasePort.step s l = some t) : Inv t := by
  cases l with
  | connect target =>
    obtain ⟨haccepts, h⟩ := Option.ite_none_right_eq_some.1 h
    exact Option.some.inj h ▸ hs.connect haccepts
  | commit =>
    obtain ⟨n, -, h⟩ := Option.bind_eq_some_iff.1 h
    obtain ⟨target, hcall, rfl⟩ := Option.map_eq_some_iff.1 h
    exact ⟨hs.accepted, fun m hm ↦ Option.some.inj hm ▸ hcall, hs.pending, hs.dials⟩
  | disconnect =>
    exact Option.some.inj h ▸ ⟨hs.accepted, fun _ h ↦ absurd h.symm (Option.some_ne_none _),
      hs.pending, hs.dials⟩
  | start x =>
    obtain ⟨-, h⟩ := Option.ite_none_left_eq_some.1 h
    obtain ⟨n, hn, rfl⟩ := Option.map_eq_some_iff.1 h
    refine ⟨hs.accepted, hs.session, fun p hp ↦ ?_, hs.dials⟩
    obtain hp | hp := List.mem_append.1 hp
    · exact hs.pending p hp
    · rw [List.mem_singleton.1 hp]
      exact hs.session n hn
  | dial i launched =>
    obtain ⟨p, hp, rfl⟩ := Option.map_eq_some_iff.1 h
    exact hs.dial launched hp

end Inv

/-! ### The claim -/

/-- The base port that a request asks for, where 0 may stand for the default. -/
def AsksFor (port B : ℤ) : Prop :=
  B = port ∨ port = 0 ∧ B = defaultBasePort.toNat

/-- A dial goes to base port `B`. -/
structure Dial.GoesTo (B : ℤ) (d : Dial) : Prop where
  port : (d.port.toNat : ℤ) = B + (offset d.stream).toNat
  range : 1 ≤ B + (offset d.stream).toNat ∧ B + (offset d.stream).toNat ≤ 65535

/-- In every run, all dials of the sessions with a target go to one base port. -/
def Agrees (target : Target) : Prop :=
  ∃ B, AsksFor target.port B ∧ ∀ ls s, exec step init ls = some s → ∀ d ∈ s.dials,
    s.calls[d.session]? = some target → d.host = target.host ∧ d.GoesTo B

/-- The conversion keeps a port that fits 16 bits. -/
theorem toNat_ofInt {port : ℤ} (h : 0 ≤ port ∧ port ≤ 65535) :
    ((UInt16.ofInt port).toNat : ℤ) = port := by
  have hlt : port.toNat < 2 ^ 16 := by omega
  rw [UInt16.ofInt, Int.emod_eq_of_lt h.1 (by omega), UInt16.toNat_ofNat_of_lt' hlt]
  exact Int.toNat_of_nonneg h.1

theorem offset_le (x : StreamId) : (offset x).toNat ≤ 4 := by
  cases x <;> decide

/-- The addition of an offset does not wrap around below 65532. -/
theorem toNat_add_offset {u : UInt16} (h : u.toNat ≤ 65531) (x : StreamId) :
    (u + offset x).toNat = u.toNat + (offset x).toNat := by
  have hx := offset_le x
  rw [UInt16.toNat_add, Nat.mod_eq_of_lt (by omega)]

/-- **Within the range** both paths dial the port that was asked for. -/
theorem Dial.Follows.goesTo {calls : List Target} {target : Target} {d : Dial}
    (h : d.Follows calls) (hcall : calls[d.session]? = some target)
    (hport : 1 ≤ target.port ∧ target.port ≤ 65531) :
    d.host = target.host ∧ d.GoesTo target.port := by
  obtain ⟨target', hcall', -, hhost, hdial⟩ := h
  obtain rfl : target' = target := Option.some.inj (hcall'.symm.trans hcall)
  have hu : ((UInt16.ofInt target'.port).toNat : ℤ) = target'.port :=
    toNat_ofInt ⟨by omega, by omega⟩
  have hx := offset_le d.stream
  have hne : UInt16.ofInt target'.port ≠ 0 := by
    intro hzero
    rw [hzero, UInt16.toNat_zero] at hu
    omega
  have heq : d.port = UInt16.ofInt target'.port + offset d.stream := by
    obtain ⟨hspeaker, hdial⟩ | hdial := hdial
    · rw [hdial, hspeaker, connectContext, if_neg hne]
    · exact hdial
  refine ⟨hhost, ?_, by omega, by omega⟩
  rw [heq, toNat_add_offset (by omega)]
  omega

/-- The screen is started, and its control socket is opened. -/
def screenRun (target : Target) : List Label :=
  [.connect target, .commit, .start .screen, .dial 0 true, .dial 0 true]

/-- The dials of `screenRun` after the first. -/
theorem exec_screenRun {target : Target} (h : accepts target.port = true) :
    ∃ s, exec step init (screenRun target) = some s ∧ s.calls = [target] ∧
      ∀ x ∈ [StreamId.screen, .control],
        ⟨0, x, target.host, connectStreamPort (.ofInt target.port) x⟩ ∈ s.dials := by
  have hconnect : step init (.connect target) = some (init.connect target) := if_pos h
  refine ⟨_, exec_cons_eq_some_iff.2 ⟨_, hconnect, rfl⟩, rfl, fun x hx ↦ ?_⟩
  obtain rfl | hx := List.mem_cons.1 hx
  · exact List.mem_cons_of_mem _ List.mem_cons_self
  · rw [List.mem_singleton.1 hx]
    exact List.mem_cons_of_mem _ (List.mem_cons_of_mem _ List.mem_cons_self)

/-- **Outside of the range** the dials of `screenRun` do not go to one base port. -/
theorem Agrees.range {target : Target} (h : Agrees target) (haccepts : accepts target.port = true) :
    1 ≤ target.port ∧ target.port ≤ 65531 := by
  obtain ⟨B, hB, hdials⟩ := h
  obtain ⟨s, hexec, hcalls, hmem⟩ := exec_screenRun haccepts
  have hgoes : ∀ x ∈ [StreamId.screen, .control],
      (⟨0, x, target.host, connectStreamPort (.ofInt target.port) x⟩ : Dial).GoesTo B :=
    fun x hx ↦ (hdials _ s hexec _ (hmem x hx) (by rw [hcalls]; rfl)).2
  obtain ⟨hscreen, hlow, -⟩ := hgoes .screen List.mem_cons_self
  obtain ⟨-, -, hhigh⟩ := hgoes .control (List.mem_cons_of_mem _ List.mem_cons_self)
  have hoffsets : (offset .screen).toNat = 0 ∧ (offset .control).toNat = 4 := by decide
  simp only [hoffsets] at hscreen hlow hhigh
  obtain rfl | ⟨hzero, rfl⟩ := hB
  · omega
  · -- The default is not known to the second path.
    have hdialed : (connectStreamPort (.ofInt 0) .screen).toNat = 0 := by decide
    rw [hzero, hdialed] at hscreen
    exact absurd hscreen (by decide)

/-- **The base port**: every dial of a session goes to one base port plus its offset exactly when
the port of the request is one from 1 to 65531, or is rejected. -/
theorem base_port_agreement (target : Target) :
    Agrees target ↔ (accepts target.port = true → 1 ≤ target.port ∧ target.port ≤ 65531) := by
  refine ⟨Agrees.range, fun h ↦ ⟨target.port, .inl rfl, fun ls s hexec d hd hcall ↦ ?_⟩⟩
  have hs : Inv s := exec_invariant (fun _ _ _ hs h ↦ hs.step h) inv_init hexec
  exact (hs.dials d hd).goesTo hcall (h (hs.accepted target (List.mem_of_getElem? hcall)))

/-- **No port**: a request without a port asks for port 0. The speaker is dialed at port 5003, and
the screen at port 0. -/
theorem port_zero_disagrees : ¬∀ target, Agrees target := by
  intro hall
  have hrange := (hall ⟨"192.168.1.20", 0⟩).range rfl
  exact absurd hrange.1 (by decide)

end AllRelay.BasePort
