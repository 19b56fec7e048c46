import AllRelay.Controller.State
import AllRelay.Library.LabelledSystem

/-!
# The socket slots of a connection

Any number of goroutines call `InstallStream`, `CloseStream`, `CloseControlConn`,
`ReconnectStreamContext` and `Close` on one `transport.Connection`. A call takes sockets out of the
slots, or puts one in, in a section under the lock of the connection; it dials and closes sockets
outside, one step each.

A socket that was dialed belongs to a slot of an open connection, or to a call that closes or
installs it later, or it is closed (`Inv.given`); when no call is under way nothing else is left
(`slot_ownership`).
-/

open LabelledSystem

namespace AllRelay.Transport

/-! ### The state -/

/-- The slot of a stream identifier. -/
def slotOf (id : UInt32) : Option StreamId :=
  if id = 1 then some .screen
  else if id = 2 then some .camera
  else if id = 3 then some .mic
  else if id = 4 then some .speaker
  else if id = 5 then some .control
  else none

/-- A call of `InstallStream` that has returned. -/
structure Install where
  /-- It was called on a closed connection. -/
  late : Bool
  /-- `streamConn`. -/
  conn : Option SocketId
  /-- It returned `nil`. -/
  ok : Bool
deriving DecidableEq, Repr

/-- What a call does when it has closed its sockets. -/
inductive After where
  /-- It returns. -/
  | returns
  /-- `ReconnectStreamContext` dials. -/
  | dials (id : UInt32)
  /-- `InstallStream` returns. -/
  | installed (r : Install)
  /-- `Close` returns. -/
  | closed
deriving DecidableEq, Repr

/-- Where a goroutine is. -/
inductive Point where
  /-- In no call. -/
  | idle
  /-- In `CloseStream`, before its section; `ReconnectStreamContext` calls it or somebody else. -/
  | closeStream (id : UInt32) (reconnect : Bool)
  /-- In `CloseControlConn`, before its section. -/
  | closeControl (c : SocketId)
  /-- In `ReconnectStreamContext`, before its check. -/
  | reconnect (id : UInt32)
  /-- Dialing. -/
  | dial (id : UInt32)
  /-- In `InstallStream`, before its section. -/
  | install (id : UInt32) (conn : Option SocketId) (late : Bool)
  /-- In `Close`, before its section. -/
  | close
  /-- Past its section, with sockets to close. -/
  | closing (cs : List SocketId) (after : After)
deriving DecidableEq, Repr

namespace Point

/-- The sockets that a call is about to close. -/
def toClose : Point → List SocketId
  | .closing cs _ => cs
  | _ => []

/-- The sockets that a call is about to close or install. -/
def hand : Point → List SocketId
  | .closing cs _ => cs
  | .install _ conn _ => conn.toList
  | _ => []

theorem toClose_subset_hand (p : Point) : p.toClose ⊆ p.hand := by
  match p with
  | .closing cs after => exact List.Subset.refl cs
  | .idle | .closeStream .. | .closeControl _ | .reconnect _ | .dial _ | .install .. | .close =>
    exact List.nil_subset _

end Point

/-- A connection and the calls on it. -/
structure State where
  /-- The connection. -/
  conn : Connection
  /-- The goroutines. -/
  point : ℕ → Point
  /-- The sockets that are closed. -/
  shut : List SocketId
  /-- History: the sockets that were in a slot at first, or given to an install. -/
  given : List SocketId
  /-- History: the sockets that an install has replaced. -/
  replaced : List SocketId
  /-- History: a call of `Close` has returned. -/
  closeReturned : Bool
  /-- History: the calls of `InstallStream` that have returned. -/
  installs : List Install

/-- A connection with these sockets. -/
def init (slot : StreamId → Option SocketId) : State :=
  ⟨⟨false, slot⟩, fun _ ↦ .idle, [], StreamId.all.filterMap slot, [], false, []⟩

/-- The calls. -/
inductive Op where
  /-- `InstallStream`. -/
  | install (id : UInt32) (conn : Option SocketId)
  /-- `CloseStream`. -/
  | closeStream (id : UInt32)
  /-- `CloseControlConn` of a socket that is not `nil`. -/
  | closeControl (c : SocketId)
  /-- `ReconnectStreamContext`. -/
  | reconnect (id : UInt32)
  /-- `Close`. -/
  | close
deriving DecidableEq, Repr

/-- The steps. -/
inductive Label where
  /-- A goroutine calls. -/
  | call (i : ℕ) (op : Op)
  /-- The next step of its call; a dial yields a socket or fails. -/
  | advance (i : ℕ) (dialed : Option SocketId)
deriving DecidableEq, Repr

/-! ### The steps -/

namespace State

/-- A goroutine moves on. -/
def go (s : State) (i : ℕ) (p : Point) : State :=
  { s with point := Function.update s.point i p }

/-- A call begins. -/
def begin (s : State) (i : ℕ) : Op → State
  | .install id conn =>
    { s.go i (.install id conn s.conn.closed) with given := conn.toList ++ s.given }
  | .closeStream id => s.go i (.closeStream id false)
  | .closeControl c => s.go i (.closeControl c)
  | .reconnect id => s.go i (.reconnect id)
  | .close => s.go i .close

/-- The section of `CloseStream`. -/
def closeStream (s : State) (i : ℕ) (id : UInt32) (after : After) : State :=
  match slotOf id with
  | some x =>
    { s.go i (.closing (s.conn.slot x).toList after) with
      conn := ⟨s.conn.closed, Function.update s.conn.slot x none⟩ }
  | none => s.go i (.closing [] after)

/-- The section of `CloseControlConn`. -/
def closeControl (s : State) (i : ℕ) (c : SocketId) : State :=
  { s.go i (.closing [c] .returns) with
    conn :=
      if s.conn.slot .control = some c then
        ⟨s.conn.closed, Function.update s.conn.slot .control none⟩
      else s.conn }

/-- The section of `InstallStream`. -/
def install (s : State) (i : ℕ) (id : UInt32) (conn : Option SocketId) (late : Bool) : State :=
  if s.conn.closed then s.go i (.closing conn.toList (.installed ⟨late, conn, false⟩))
  else
    match slotOf id with
    | none => s.go i (.closing conn.toList (.installed ⟨late, conn, false⟩))
    | some x =>
      let oldConn := if s.conn.slot x = conn then [] else (s.conn.slot x).toList
      { s.go i (.closing oldConn (.installed ⟨late, conn, true⟩)) with
        conn := ⟨s.conn.closed, Function.update s.conn.slot x conn⟩
        replaced := oldConn ++ s.replaced }

/-- The section of `Close`. -/
def close (s : State) (i : ℕ) : State :=
  if s.conn.closed then s.go i (.closing [] .closed)
  else
    { s.go i (.closing (StreamId.all.filterMap s.conn.slot) .closed) with
      conn := ⟨true, fun _ ↦ none⟩ }

/-- A call that has closed its sockets. -/
def finish (s : State) (i : ℕ) : After → State
  | .returns => s.go i .idle
  | .dials id => s.go i (.dial id)
  | .installed r => { s.go i .idle with installs := s.installs ++ [r] }
  | .closed => { s.go i .idle with closeReturned := true }

/-- The next step of a call; `port` is the stream that a socket was dialed for. -/
def advance (port : SocketId → UInt32) (s : State) (i : ℕ) (dialed : Option SocketId) :
    Option State :=
  match s.point i with
  | .idle => none
  | .closeStream id reconnect =>
    some (s.closeStream i id (if reconnect then .dials id else .returns))
  | .closeControl c => some (s.closeControl i c)
  | .reconnect id =>
    some (s.go i (if s.conn.closed then .idle else .closeStream id true))
  | .dial id =>
    match dialed with
    | none => some (s.go i .idle)
    | some c =>
      -- A dial for an unknown stream always fails.
      if port c = id ∧ (slotOf id).isSome then
        some { s.go i (.install id (some c) s.conn.closed) with given := c :: s.given }
      else none
  | .install id conn late => some (s.install i id conn late)
  | .close => some (s.close i)
  | .closing (c :: cs) after => some { s.go i (.closing cs after) with shut := c :: s.shut }
  | .closing [] after => some (s.finish i after)

end State

/-- A socket is only installed for the stream that it was dialed for. -/
def Op.dialed (port : SocketId → UInt32) : Op → Prop
  | .install id conn => ∀ c ∈ conn, port c = id
  | _ => True

instance (port : SocketId → UInt32) (op : Op) : Decidable (op.dialed port) :=
  match op with
  | .install id conn => inferInstanceAs (Decidable (∀ c ∈ conn, port c = id))
  | .closeStream _ | .closeControl _ | .reconnect _ | .close => inferInstanceAs (Decidable True)

/-- One step. -/
def step (port : SocketId → UInt32) (s : State) : Label → Option State
  | .call i op => if s.point i = .idle ∧ op.dialed port then some (s.begin i op) else none
  | .advance i dialed => s.advance port i dialed

/-! ### The invariant -/

/-- An install on a closed connection fails and closes its socket, now or with those in `cs`. -/
def Install.Refused (shut cs : List SocketId) (r : Install) : Prop :=
  r.late = true → r.ok = false ∧ ∀ c ∈ r.conn, c ∈ cs ∨ c ∈ shut

/-- What a call knows of the connection. -/
def Point.Ok (port : SocketId → UInt32) (closed : Bool) (shut : List SocketId) : Point → Prop
  | .install id conn late => (∀ c ∈ conn, port c = id) ∧ (late = true → closed = true)
  | .closing cs (.installed r) => r.Refused shut cs
  | .closing _ .closed => closed = true
  | _ => True

/-- What holds between any two steps. -/
structure Inv (port : SocketId → UInt32) (s : State) : Prop where
  /-- A slot has a socket of its own stream. -/
  slots : ∀ x, ∀ c ∈ s.conn.slot x, slotOf (port c) = some x
  /-- A closed connection has none. -/
  emptied : s.conn.closed = true → ∀ x, s.conn.slot x = none
  points : ∀ i, (s.point i).Ok port s.conn.closed s.shut
  /-- A socket is in a slot, closed, or in the hand of a call. -/
  given : ∀ c ∈ s.given, (∃ x, s.conn.slot x = some c) ∨ c ∈ s.shut ∨ ∃ i, c ∈ (s.point i).hand
  /-- A socket that was replaced is closed, or is going to be. -/
  replaced : ∀ c ∈ s.replaced, c ∈ s.shut ∨ ∃ i, c ∈ (s.point i).toClose
  /-- An install on a closed connection has failed and closed its socket. -/
  installs : ∀ r ∈ s.installs, r.Refused s.shut []
  /-- `Close` returns with the connection closed. -/
  returned : s.closeReturned = true → s.conn.closed = true

variable {port : SocketId → UInt32} {s t : State} {i : ℕ} {p : Point}

theorem Install.Refused.mono {shut shut' cs : List SocketId} {r : Install}
    (h : r.Refused shut cs) (hshut : shut ⊆ shut') : r.Refused shut' cs :=
  fun hlate ↦ ⟨(h hlate).1, fun c hc ↦ ((h hlate).2 c hc).imp_right fun h ↦ hshut h⟩

theorem Point.Ok.mono {closed closed' : Bool} {shut shut' : List SocketId}
    (h : p.Ok port closed shut) (hclosed : closed = true → closed' = true)
    (hshut : shut ⊆ shut') : p.Ok port closed' shut' := by
  match p with
  | .install id conn late => exact ⟨h.1, fun hlate ↦ hclosed (h.2 hlate)⟩
  | .closing cs (.installed r) => exact Install.Refused.mono h hshut
  | .closing _ .closed => exact hclosed h
  | .closing _ .returns | .closing _ (.dials _) | .idle | .closeStream .. | .closeControl _
  | .reconnect _ | .dial _ | .close => exact trivial

theorem inv_init {slot : StreamId → Option SocketId}
    (hslot : ∀ x, ∀ c ∈ slot x, slotOf (port c) = some x) : Inv port (init slot) where
  slots := hslot
  emptied h := Bool.noConfusion h
  points _ := trivial
  given c hc := by
    obtain ⟨x, -, hx⟩ := List.mem_filterMap.1 hc
    exact .inl ⟨x, hx⟩
  replaced _ h := absurd h List.not_mem_nil
  installs _ h := absurd h List.not_mem_nil
  returned h := Bool.noConfusion h

namespace Inv

/-- **A step of one call.** The sockets of the slots and of its hand go into the slots or its hand,
or are closed. -/
theorem next (hs : Inv port s) {conn : Connection} {shut given replaced : List SocketId}
    {closeReturned : Bool} {installs : List Install}
    (hclosed : s.conn.closed = true → conn.closed = true)
    (hslots : ∀ x, ∀ c ∈ conn.slot x, slotOf (port c) = some x)
    (hemptied : conn.closed = true → ∀ x, conn.slot x = none) (hshut : s.shut ⊆ shut)
    (hp : p.Ok port conn.closed shut)
    (hkept : ∀ c, (∃ x, s.conn.slot x = some c) ∨ c ∈ (s.point i).hand →
      (∃ x, conn.slot x = some c) ∨ c ∈ shut ∨ c ∈ p.hand)
    (hgiven : ∀ c ∈ given, c ∈ s.given ∨ c ∈ p.hand)
    (hclosing : ∀ c ∈ (s.point i).toClose, c ∈ shut ∨ c ∈ p.toClose)
    (hreplaced : ∀ c ∈ replaced, c ∈ s.replaced ∨ c ∈ p.toClose)
    (hinstalls : ∀ r ∈ installs, r ∈ s.installs ∨ r.Refused shut [])
    (hreturned : closeReturned = true → s.closeReturned = true ∨ conn.closed = true) :
    Inv port
      ⟨conn, Function.update s.point i p, shut, given, replaced, closeReturned, installs⟩ where
  slots := hslots
  emptied := hemptied
  points j := by
    show (Function.update s.point i p j).Ok port conn.closed shut
    obtain rfl | hne := eq_or_ne j i
    · rw [Function.update_self]
      exact hp
    · rw [Function.update_of_ne hne]
      exact (hs.points j).mono hclosed hshut
  given c hc := by
    have hself : c ∈ p.hand → ∃ j, c ∈ (Function.update s.point i p j).hand :=
      fun h ↦ ⟨i, by rwa [Function.update_self]⟩
    have hother : ∀ j, j ≠ i → c ∈ (s.point j).hand →
        ∃ j, c ∈ (Function.update s.point i p j).hand :=
      fun j hne h ↦ ⟨j, by rwa [Function.update_of_ne hne]⟩
    have hkept' : (∃ x, s.conn.slot x = some c) ∨ c ∈ (s.point i).hand →
        (∃ x, conn.slot x = some c) ∨ c ∈ shut ∨ ∃ j, c ∈ (Function.update s.point i p j).hand :=
      fun h ↦ (hkept c h).imp_right (Or.imp_right hself)
    obtain hc | hc := hgiven c hc
    · obtain h | h | ⟨j, h⟩ := hs.given c hc
      · exact hkept' (.inl h)
      · exact .inr (.inl (hshut h))
      · obtain rfl | hne := eq_or_ne j i
        · exact hkept' (.inr h)
        · exact .inr (.inr (hother j hne h))
    · exact .inr (.inr (hself hc))
  replaced c hc := by
    have hself : c ∈ p.toClose → ∃ j, c ∈ (Function.update s.point i p j).toClose :=
      fun h ↦ ⟨i, by rwa [Function.update_self]⟩
    have hother : ∀ j, j ≠ i → c ∈ (s.point j).toClose →
        ∃ j, c ∈ (Function.update s.point i p j).toClose :=
      fun j hne h ↦ ⟨j, by rwa [Function.update_of_ne hne]⟩
    obtain hc | hc := hreplaced c hc
    · obtain h | ⟨j, h⟩ := hs.replaced c hc
      · exact .inl (hshut h)
      · obtain rfl | hne := eq_or_ne j i
        · exact (hclosing c h).imp_right hself
        · exact .inr (hother j hne h)
    · exact .inr (hself hc)
  installs r hr := by
    obtain hr | hr := hinstalls r hr
    · exact (hs.installs r hr).mono hshut
    · exact hr
  returned h := by
    obtain h | h := hreturned h
    · exact hclosed (hs.returned h)
    · exact h

/-- A call moves on without touching the connection. -/
theorem go (hs : Inv port s) (hp : p.Ok port s.conn.closed s.shut)
    (hhand : (s.point i).hand ⊆ p.hand) (hclosing : (s.point i).toClose ⊆ p.toClose) :
    Inv port (s.go i p) :=
  hs.next (fun h ↦ h) hs.slots hs.emptied (List.Subset.refl _) hp
    (fun _ hc ↦ hc.imp_right fun hc ↦ .inr (hhand hc)) (fun _ hc ↦ .inl hc)
    (fun _ hc ↦ .inr (hclosing hc)) (fun _ hc ↦ .inl hc) (fun _ hr ↦ .inl hr) fun h ↦ .inl h

/-- A socket taken out of a slot is in the hand of the call that takes it. -/
theorem mem_slot_or {slot : StreamId → Option SocketId} {x : StreamId} {v : Option SocketId}
    {c : SocketId} (h : ∃ y, slot y = some c) :
    (∃ y, Function.update slot x v y = some c) ∨ slot x = some c := by
  obtain ⟨y, hy⟩ := h
  obtain rfl | hne := eq_or_ne y x
  · exact .inr hy
  · exact .inl ⟨y, by rwa [Function.update_of_ne hne]⟩

/-- Putting a socket of the stream, or none, into a slot keeps the slots in order. -/
theorem slots_update (hs : Inv port s) {x : StreamId} {v : Option SocketId}
    (hv : ∀ c ∈ v, slotOf (port c) = some x) :
    ∀ y, ∀ c ∈ Function.update s.conn.slot x v y, slotOf (port c) = some y := by
  intro y c hc
  obtain rfl | hne := eq_or_ne y x
  · rw [Function.update_self] at hc
    exact hv c hc
  · rw [Function.update_of_ne hne] at hc
    exact hs.slots y c hc

/-- A closed connection stays empty when a slot is cleared. -/
theorem emptied_update (hs : Inv port s) (x : StreamId) (h : s.conn.closed = true) :
    ∀ y, Function.update s.conn.slot x none y = none := by
  intro y
  obtain rfl | hne := eq_or_ne y x
  · exact Function.update_self ..
  · rw [Function.update_of_ne hne]
    exact hs.emptied h y

/-- The section of `CloseStream`. -/
theorem closeStream (hs : Inv port s) {id : UInt32} {after : After} {reconnect : Bool}
    (hpoint : s.point i = .closeStream id reconnect)
    (hafter : ∀ cs, (Point.closing cs after).Ok port s.conn.closed s.shut) :
    Inv port (s.closeStream i id after) := by
  have hnothing : (s.point i).hand = [] ∧ (s.point i).toClose = [] := by
    rw [hpoint]
    exact ⟨rfl, rfl⟩
  unfold State.closeStream
  split
  · rename_i x _
    refine hs.next (fun h ↦ h) (hs.slots_update fun c hc ↦ absurd hc (Option.not_mem_none c))
      (hs.emptied_update x) (List.Subset.refl _) (hafter _) (fun c hc ↦ ?_) (fun _ hc ↦ .inl hc)
      (fun c hc ↦ ?_) (fun _ hc ↦ .inl hc) (fun _ hr ↦ .inl hr) fun h ↦ .inl h
    · obtain hc | hc := hc
      · obtain h | h := mem_slot_or (x := x) (v := none) hc
        · exact .inl h
        · exact .inr (.inr (Option.mem_toList.2 h))
      · rw [hnothing.1] at hc
        exact absurd hc List.not_mem_nil
    · rw [hnothing.2] at hc
      exact absurd hc List.not_mem_nil
  · refine hs.go (hafter _) ?_ ?_
    · rw [hnothing.1]
      exact List.nil_subset _
    · rw [hnothing.2]
      exact List.nil_subset _

/-- The section of `CloseControlConn`. -/
theorem closeControl (hs : Inv port s) {c : SocketId} (hpoint : s.point i = .closeControl c) :
    Inv port (s.closeControl i c) := by
  have hnothing : (s.point i).hand = [] ∧ (s.point i).toClose = [] := by
    rw [hpoint]
    exact ⟨rfl, rfl⟩
  have hclosing : ∀ d ∈ (s.point i).toClose, d ∈ s.shut ∨ d ∈ [c] := by
    rw [hnothing.2]
    exact fun d hd ↦ absurd hd List.not_mem_nil
  unfold State.closeControl
  split
  · rename_i hcontrol
    refine hs.next (fun h ↦ h) (hs.slots_update fun c hc ↦ absurd hc (Option.not_mem_none c))
      (hs.emptied_update _) (List.Subset.refl _) trivial (fun d hd ↦ ?_) (fun _ hd ↦ .inl hd)
      hclosing (fun _ hd ↦ .inl hd) (fun _ hr ↦ .inl hr) fun h ↦ .inl h
    obtain hd | hd := hd
    · obtain h | h := mem_slot_or (x := .control) (v := none) hd
      · exact .inl h
      · rw [hcontrol, Option.some.injEq] at h
        exact .inr (.inr (List.mem_singleton.2 h.symm))
    · rw [hnothing.1] at hd
      exact absurd hd List.not_mem_nil
  · refine hs.next (fun h ↦ h) hs.slots hs.emptied (List.Subset.refl _) trivial (fun d hd ↦ ?_)
      (fun _ hd ↦ .inl hd) hclosing (fun _ hd ↦ .inl hd) (fun _ hr ↦ .inl hr) fun h ↦ .inl h
    obtain hd | hd := hd
    · exact .inl hd
    · rw [hnothing.1] at hd
      exact absurd hd List.not_mem_nil

/-- An install that fails has its socket to close. -/
theorem refuse (hs : Inv port s) {id : UInt32} {conn : Option SocketId} {late : Bool}
    (hpoint : s.point i = .install id conn late) :
    Inv port (s.go i (.closing conn.toList (.installed ⟨late, conn, false⟩))) := by
  refine hs.go (fun _ ↦ ⟨rfl, fun c hc ↦ .inl (Option.mem_toList.2 hc)⟩) ?_ ?_
  · rw [hpoint]
    exact List.Subset.refl _
  · rw [hpoint]
    exact List.nil_subset _

/-- The section of `InstallStream`. -/
theorem install (hs : Inv port s) {id : UInt32} {conn : Option SocketId} {late : Bool}
    (hpoint : s.point i = .install id conn late) : Inv port (s.install i id conn late) := by
  unfold State.install
  split
  · exact hs.refuse hpoint
  · rename_i hopen
    split
    · exact hs.refuse hpoint
    · rename_i x hx
      have hok := hs.points i
      rw [hpoint] at hok
      have hconn : ∀ c ∈ conn, slotOf (port c) = some x := by
        intro c hc
        rw [hok.1 c hc]
        exact hx
      refine hs.next (fun h ↦ h) (hs.slots_update hconn) (fun h ↦ absurd h hopen)
        (List.Subset.refl _) (fun hlate ↦ absurd (hok.2 hlate) hopen) (fun c hc ↦ ?_)
        (fun _ hc ↦ .inl hc) (fun c hc ↦ ?_) (fun c hc ↦ ?_) (fun _ hr ↦ .inl hr) fun h ↦ .inl h
      · obtain hc | hc := hc
        · obtain h | h := mem_slot_or (x := x) (v := conn) hc
          · exact .inl h
          · -- the old socket: it stays if it is installed again
            by_cases hsame : s.conn.slot x = conn
            · exact .inl ⟨x, (Function.update_self ..).trans (hsame.symm.trans h)⟩
            · refine .inr (.inr ?_)
              show c ∈ if s.conn.slot x = conn then [] else (s.conn.slot x).toList
              rw [if_neg hsame]
              exact Option.mem_toList.2 h
        · rw [hpoint] at hc
          exact .inl ⟨x, (Function.update_self ..).trans (Option.mem_toList.1 hc)⟩
      · rw [hpoint] at hc
        exact absurd hc List.not_mem_nil
      · exact (List.mem_append.1 hc).symm

/-- The section of `Close`. -/
theorem close (hs : Inv port s) (hpoint : s.point i = .close) : Inv port (s.close i) := by
  have hnothing : (s.point i).hand = [] ∧ (s.point i).toClose = [] := by
    rw [hpoint]
    exact ⟨rfl, rfl⟩
  unfold State.close
  split
  · rename_i hclosed
    refine hs.go hclosed ?_ ?_
    · rw [hnothing.1]
      exact List.nil_subset _
    · rw [hnothing.2]
      exact List.nil_subset _
  · refine hs.next (fun _ ↦ rfl) (fun _ c hc ↦ absurd hc (Option.not_mem_none c)) (fun _ _ ↦ rfl)
      (List.Subset.refl _) rfl (fun c hc ↦ ?_) (fun _ hc ↦ .inl hc) (fun c hc ↦ ?_)
      (fun _ hc ↦ .inl hc) (fun _ hr ↦ .inl hr) fun h ↦ .inl h
    · obtain ⟨x, hx⟩ | hc := hc
      · exact .inr (.inr (List.mem_filterMap.2 ⟨x, StreamId.mem_all x, hx⟩))
      · rw [hnothing.1] at hc
        exact absurd hc List.not_mem_nil
    · rw [hnothing.2] at hc
      exact absurd hc List.not_mem_nil

/-- A socket is closed. -/
theorem closeSocket (hs : Inv port s) {c : SocketId} {cs : List SocketId} {after : After}
    (hpoint : s.point i = .closing (c :: cs) after) :
    Inv port { s.go i (.closing cs after) with shut := c :: s.shut } := by
  have hhand : ∀ d ∈ c :: cs, d ∈ c :: s.shut ∨ d ∈ cs := by
    intro d hd
    obtain rfl | hd := List.mem_cons.1 hd
    · exact .inl List.mem_cons_self
    · exact .inr hd
  have hok : (Point.closing cs after).Ok port s.conn.closed (c :: s.shut) := by
    have hok := hs.points i
    rw [hpoint] at hok
    match after with
    | .installed r =>
      refine fun hlate ↦ ⟨(hok hlate).1, fun d hd ↦ ?_⟩
      obtain h | h := (hok hlate).2 d hd
      · exact (hhand d h).symm
      · exact .inr (List.mem_cons_of_mem c h)
    | .closed => exact hok
    | .returns | .dials _ => exact trivial
  refine hs.next (fun h ↦ h) hs.slots hs.emptied (List.subset_cons_self ..) hok (fun d hd ↦ ?_)
    (fun _ hd ↦ .inl hd) (fun d hd ↦ ?_) (fun _ hd ↦ .inl hd) (fun _ hr ↦ .inl hr) fun h ↦ .inl h
  · obtain hd | hd := hd
    · exact .inl hd
    · rw [hpoint] at hd
      exact .inr (hhand d hd)
  · rw [hpoint] at hd
    exact hhand d hd

/-- A call that has no socket in its hand moves on. -/
theorem pass (hs : Inv port s) (hp : p.Ok port s.conn.closed s.shut)
    (hhand : (s.point i).hand = []) : Inv port (s.go i p) := by
  have htoClose : (s.point i).toClose ⊆ [] := hhand ▸ Point.toClose_subset_hand _
  exact hs.go hp (hhand ▸ List.nil_subset _) (List.Subset.trans htoClose (List.nil_subset _))

/-- A call that has closed its sockets goes on. -/
theorem finish (hs : Inv port s) {after : After} (hpoint : s.point i = .closing [] after) :
    Inv port (s.finish i after) := by
  have hhand : (s.point i).hand = [] := by
    rw [hpoint]
    rfl
  have hok := hs.points i
  rw [hpoint] at hok
  match after with
  | .returns => exact hs.pass trivial hhand
  | .dials id => exact hs.pass trivial hhand
  | .installed r =>
    have hidle := hs.pass (p := .idle) trivial hhand
    refine ⟨hidle.slots, hidle.emptied, hidle.points, hidle.given, hidle.replaced, ?_,
      hidle.returned⟩
    intro r' hr
    obtain hr | hr := List.mem_append.1 hr
    · exact hs.installs r' hr
    · rw [List.mem_singleton.1 hr]
      exact hok
  | .closed =>
    have hidle := hs.pass (p := .idle) trivial hhand
    exact ⟨hidle.slots, hidle.emptied, hidle.points, hidle.given, hidle.replaced, hidle.installs,
      fun _ ↦ hok⟩

/-- A socket is given to an install. -/
theorem give (hs : Inv port s) {id : UInt32} {conn : Option SocketId}
    (hhand : (s.point i).hand = []) (hport : ∀ c ∈ conn, port c = id) :
    Inv port { s.go i (.install id conn s.conn.closed) with given := conn.toList ++ s.given } := by
  have htoClose : (s.point i).toClose ⊆ [] := hhand ▸ Point.toClose_subset_hand _
  refine hs.next (fun h ↦ h) hs.slots hs.emptied (List.Subset.refl _) ⟨hport, fun h ↦ h⟩
    (fun c hc ↦ ?_) (fun c hc ↦ (List.mem_append.1 hc).symm)
    (fun c hc ↦ absurd (htoClose hc) List.not_mem_nil) (fun _ hc ↦ .inl hc) (fun _ hr ↦ .inl hr)
    fun h ↦ .inl h
  obtain hc | hc := hc
  · exact .inl hc
  · rw [hhand] at hc
    exact absurd hc List.not_mem_nil

/-- The next step of a call. -/
theorem advance (hs : Inv port s) {dialed : Option SocketId}
    (h : s.advance port i dialed = some t) : Inv port t := by
  unfold State.advance at h
  match hpoint : s.point i with
  | .idle =>
    simp only [hpoint] at h
    exact absurd h (Option.some_ne_none _).symm
  | .closeStream id reconnect =>
    simp only [hpoint] at h
    refine Option.some.inj h ▸ hs.closeStream hpoint fun cs ↦ ?_
    split <;> exact trivial
  | .closeControl c =>
    simp only [hpoint] at h
    exact Option.some.inj h ▸ hs.closeControl hpoint
  | .reconnect id =>
    simp only [hpoint] at h
    refine Option.some.inj h ▸ hs.pass ?_ (by rw [hpoint]; rfl)
    split <;> exact trivial
  | .dial id =>
    simp only [hpoint] at h
    have hhand : (s.point i).hand = [] := by
      rw [hpoint]
      rfl
    match dialed with
    | none => exact Option.some.inj h ▸ hs.pass trivial hhand
    | some c =>
      obtain ⟨⟨hport, -⟩, h⟩ := Option.ite_none_right_eq_some.1 h
      have hgive : ∀ d ∈ some c, port d = id := fun d hd ↦ Option.some.inj hd ▸ hport
      exact Option.some.inj h ▸ hs.give hhand hgive
  | .install id conn late =>
    simp only [hpoint] at h
    exact Option.some.inj h ▸ hs.install hpoint
  | .close =>
    simp only [hpoint] at h
    exact Option.some.inj h ▸ hs.close hpoint
  | .closing (c :: cs) after =>
    simp only [hpoint] at h
    exact Option.some.inj h ▸ hs.closeSocket hpoint
  | .closing [] after =>
    simp only [hpoint] at h
    exact Option.some.inj h ▸ hs.finish hpoint

/-- Every step keeps it. -/
theorem step (hs : Inv port s) {l : Label} (h : Transport.step port s l = some t) : Inv port t := by
  match l with
  | .advance i dialed => exact hs.advance h
  | .call i op =>
    obtain ⟨⟨hidle, hdialed⟩, h⟩ := Option.ite_none_right_eq_some.1 h
    have hhand : (s.point i).hand = [] := by
      rw [hidle]
      rfl
    match op with
    | .install id conn => exact Option.some.inj h ▸ hs.give hhand hdialed
    | .closeStream _ | .closeControl _ | .reconnect _ | .close =>
      exact Option.some.inj h ▸ hs.pass trivial hhand

end Inv

/-! ### Every run -/

namespace State

/-- No call is about to close or install the socket. -/
def settled (s : State) (c : SocketId) : Prop :=
  ∀ i, c ∉ (s.point i).hand

/-- No call is under way. -/
def quiescent (s : State) : Prop :=
  ∀ i, s.point i = .idle

theorem quiescent.settled (h : s.quiescent) (c : SocketId) : s.settled c := by
  intro i
  rw [h i]
  exact List.not_mem_nil

end State

/-- The slot that has a socket is determined by the socket. -/
theorem Inv.existsUnique (hs : Inv port s) {c : SocketId} (h : ∃ x, s.conn.slot x = some c) :
    s.conn.closed = false ∧ ∃! x, s.conn.slot x = some c := by
  obtain ⟨x, hx⟩ := h
  refine ⟨Bool.eq_false_iff.2 fun hclosed ↦ ?_, x, hx, fun y hy ↦ ?_⟩
  · rw [hs.emptied hclosed x] at hx
    exact absurd hx (Option.some_ne_none c).symm
  · exact Option.some.inj ((hs.slots y c hy).symm.trans (hs.slots x c hx))

/-- **Every socket has one owner.** After every schedule of calls, a socket that the connection had
or an install was given is in exactly one slot, and the connection is open, or it is closed, unless
a call under way is about to close or install it; so is every socket that was replaced. When a call
of `Close` has returned no slot has a socket, and an install that is called on a closed connection
fails and closes its socket. -/
theorem slot_ownership {slot : StreamId → Option SocketId} {ls : List Label}
    (hslot : ∀ x, ∀ c ∈ slot x, slotOf (port c) = some x)
    (h : exec (step port) (init slot) ls = some s) :
    (∀ c ∈ s.given, s.settled c →
        (s.conn.closed = false ∧ ∃! x, s.conn.slot x = some c) ∨ c ∈ s.shut) ∧
      (∀ c ∈ s.replaced, s.settled c → c ∈ s.shut) ∧
      (s.closeReturned = true → s.conn.closed = true ∧ ∀ x, s.conn.slot x = none) ∧
      ∀ r ∈ s.installs, r.late = true → r.ok = false ∧ ∀ c ∈ r.conn, c ∈ s.shut := by
  have hs : Inv port s := exec_invariant (fun _ _ _ hs h ↦ hs.step h) (inv_init hslot) h
  refine ⟨fun c hc hsettled ↦ ?_, fun c hc hsettled ↦ ?_, fun hreturned ↦ ?_, fun r hr hlate ↦ ?_⟩
  · obtain hc | hc | ⟨i, hc⟩ := hs.given c hc
    · exact .inl (hs.existsUnique hc)
    · exact .inr hc
    · exact absurd hc (hsettled i)
  · obtain hc | ⟨i, hc⟩ := hs.replaced c hc
    · exact hc
    · exact absurd (Point.toClose_subset_hand _ hc) (hsettled i)
  · exact ⟨hs.returned hreturned, hs.emptied (hs.returned hreturned)⟩
  · obtain ⟨hfailed, hclosed⟩ := hs.installs r hr hlate
    exact ⟨hfailed, fun c hc ↦ (hclosed c hc).resolve_left List.not_mem_nil⟩

/-- The screen is reconnected while the connection is closed. -/
def reconnectRun : List Label :=
  [.call 0 (.reconnect 1), .advance 0 none, .advance 0 none, .advance 0 none, .advance 0 none,
    .call 1 .close, .advance 1 none, .advance 1 none, .advance 0 (some 7), .advance 0 none,
    .advance 0 none, .advance 0 none]

/-- A connection with one socket, of the screen. -/
def screenOnly (x : StreamId) : Option SocketId :=
  if x = .screen then some 3 else none

/-- The new socket comes too late: its install fails, and it is closed. -/
theorem slot_ownership_reconnectRun :
    ∃ s, exec (step fun _ ↦ 1) (init screenOnly) reconnectRun = some s ∧
      s.closeReturned = true ∧ s.installs = [⟨true, some 7, false⟩] ∧
      ∀ r ∈ s.installs, r.late = true → r.ok = false ∧ ∀ c ∈ r.conn, c ∈ s.shut := by
  have hslot : ∀ x, ∀ c ∈ screenOnly x, slotOf 1 = some x := by
    intro x c hc
    obtain ⟨rfl, -⟩ := Option.ite_none_right_eq_some.1 hc
    rfl
  exact ⟨_, rfl, rfl, rfl,
    (@slot_ownership (fun _ ↦ 1) _ screenOnly reconnectRun hslot rfl).2.2.2⟩

end AllRelay.Transport
