import Mathlib.Data.Int.Notation
import Mathlib.Data.List.Induction
import Mathlib.Logic.Function.Basic

/-!
# The registry of discovered phones

The web server keeps the phones that its scans have found, under keys of the form `ip:port`. When
the controller connects, `SetConnectionStatus` looks for the phone under its host, which is never
such a key, and when it disconnects there is no phone to look for. So the `Connected` flag of a
registered phone, which each scan carries over, is never set: it is right as long as the controller
is not connected to an address that a scan has found (`registry_flag_iff`).
-/

namespace AllRelay.PhoneRegistry

/-- A phone that answers a scan: `discovery.Phone`. -/
structure Phone where
  name : String
  /-- An IPv4 address in text form. -/
  ip : String
  port : ℤ
  ip_colon : ':' ∉ ip.toList

/-- `PhoneDevice`. -/
structure PhoneDevice where
  id : String
  name : String
  ip : String
  ports : List ℤ
  connected : Bool
deriving DecidableEq, Repr

/-- `itoa`. -/
def itoa (i : ℤ) : String := toString i

/-- The key under which a scan stores a phone. -/
def Phone.id (p : Phone) : String := p.ip ++ ":" ++ itoa p.port

/-- The web server and its controller. -/
structure State where
  /-- `phones`. -/
  phones : String → Option PhoneDevice
  /-- `currentConn.Phone`. -/
  current : Option PhoneDevice
  /-- `currentConn.Connected`. -/
  connected : Bool
  /-- The address that the controller is connected to. -/
  address : Option String

/-- The web server at first. -/
def init : State := ⟨fun _ ↦ none, none, false, none⟩

/-- What the web server handles. -/
inductive Event where
  /-- A scan, with the phones that it finds, or an error. -/
  | scan (results : Option (List Phone))
  /-- A request to connect, with the address that its dial reaches, if it succeeds. -/
  | connect (host : String) (reached : Option String)
  /-- A request to disconnect. -/
  | disconnect

namespace State

/-- A scan stores one phone and keeps its flag. -/
def merge (s : State) (p : Phone) : State :=
  let connected :=
    match s.phones p.id with
    | some existing => existing.connected
    | none => false
  let device : PhoneDevice := ⟨p.id, p.name, p.ip, [p.port], connected⟩
  { s with phones := Function.update s.phones p.id (some device) }

/-- `handleScanPhones`. -/
def scan (s : State) : Option (List Phone) → State
  | none => s
  | some results => results.foldl merge s

/-- `SetConnectionStatus`. -/
def setConnectionStatus (s : State) (connected : Bool) : Option PhoneDevice → State
  | some phone =>
    { s with
      connected
      current := some { phone with connected }
      phones :=
        match s.phones phone.id with
        | some p => Function.update s.phones phone.id (some { p with connected })
        | none => s.phones }
  | none => { s with connected, current := none }

/-- `Disconnect`. -/
def disconnect (s : State) : State :=
  if s.address.isSome then { s with address := none }.setConnectionStatus false none else s

/-- `Connect`. -/
def connect (s : State) (host : String) : Option String → State
  | none => s.disconnect
  | some address =>
    { s.disconnect with address := some address }.setConnectionStatus true
      (some ⟨host, "Phone (" ++ host ++ ")", host, [], true⟩)

/-- The state after an event. -/
def next (s : State) : Event → State
  | .scan results => s.scan results
  | .connect host reached => s.connect host reached
  | .disconnect => s.disconnect

end State

/-- The state after a sequence of events. -/
def run (es : List Event) : State :=
  es.foldl State.next init

/-! ### What is claimed -/

/-- A registered phone has the flag when the controller is connected to its address, and at most one
address has it. -/
structure FlagsRight (s : State) : Prop where
  connected : ∀ id p, s.phones id = some p → (p.connected = true ↔ s.address = some p.ip)
  single : ∀ id id' p p', s.phones id = some p → s.phones id' = some p' →
    p.connected = true → p'.connected = true → p.ip = p'.ip

/-- The addresses that the scans have found. -/
def found (es : List Event) : List String :=
  es.flatMap fun
    | .scan (some results) => results.map Phone.ip
    | _ => []

/-- The address that the last request to connect has reached, unless the phone was disconnected
since. -/
def connectedTo (es : List Event) : Option String :=
  es.foldl (fun address e ↦
    match e with
    | .scan _ => address
    | .connect _ reached => reached
    | .disconnect => none) none

/-- A dial of the host reaches the address. -/
def Event.Possible (reaches : String → String → Prop) : Event → Prop
  | .connect host (some address) => reaches host address
  | _ => True

/-! ### The invariant -/

/-- The key of a phone determines its address. -/
theorem Phone.ip_eq_of_id {p q : Phone} (h : p.id = q.id) : p.ip = q.ip := by
  have hlist : p.ip.toList ++ ':' :: (itoa p.port).toList =
      q.ip.toList ++ ':' :: (itoa q.port).toList := by
    have h' := congrArg String.toList h
    simp only [Phone.id, String.toList_append] at h'
    rw [List.append_assoc, List.append_assoc] at h'
    exact h'
  refine String.toList_inj.1 ?_
  have htake := congrArg (List.takeWhile (· ≠ ':')) hlist
  have hcut : ∀ {l : List Char} (rest : List Char), ':' ∉ l →
      (l ++ ':' :: rest).takeWhile (· ≠ ':') = l := by
    intro l rest hl
    rw [List.takeWhile_append_of_pos fun c hc ↦ by simpa using ne_of_mem_of_not_mem hc hl]
    simp
  rwa [hcut _ p.ip_colon, hcut _ q.ip_colon] at htake

/-- What holds of the registry when the scans have found these addresses. -/
structure Inv (addresses : List String) (s : State) : Prop where
  /-- No flag is set. -/
  clear : ∀ id p, s.phones id = some p → p.connected = false
  /-- A registered phone was found, and has the key of a scan. -/
  listed : ∀ id p, s.phones id = some p →
    p.ip ∈ addresses ∧ ∃ q : Phone, id = q.id ∧ p.ip = q.ip
  /-- An address that was found stays registered. -/
  kept : ∀ a ∈ addresses, ∃ id p, s.phones id = some p ∧ p.ip = a

theorem inv_init : Inv [] init where
  clear _ _ h := absurd h.symm (Option.some_ne_none _)
  listed _ _ h := absurd h.symm (Option.some_ne_none _)
  kept _ h := absurd h List.not_mem_nil

variable {addresses : List String} {s : State} {es : List Event}

namespace Inv

/-- A scan stores one phone. -/
theorem merge (hs : Inv addresses s) (q : Phone) : Inv (addresses ++ [q.ip]) (s.merge q) := by
  obtain ⟨device, hphones, hip, hconnected⟩ : ∃ device : PhoneDevice,
      (s.merge q).phones = Function.update s.phones q.id (some device) ∧ device.ip = q.ip ∧
        device.connected = false := by
    refine ⟨_, rfl, rfl, ?_⟩
    show (match s.phones q.id with | some existing => existing.connected | none => false) = false
    split
    · rename_i existing hexisting
      exact hs.clear q.id existing hexisting
    · rfl
  have hentry : ∀ {id p}, (s.merge q).phones id = some p →
      id = q.id ∧ p = device ∨ s.phones id = some p := by
    intro id p h
    rw [hphones] at h
    by_cases hid : id = q.id
    · rw [hid, Function.update_self] at h
      exact .inl ⟨hid, (Option.some.inj h).symm⟩
    · rw [Function.update_of_ne hid] at h
      exact .inr h
  constructor
  case clear =>
    intro id p h
    obtain ⟨-, rfl⟩ | h := hentry h
    · exact hconnected
    · exact hs.clear id p h
  case listed =>
    intro id p h
    obtain ⟨hid, rfl⟩ | h := hentry h
    · exact ⟨List.mem_append_right _ (hip ▸ List.mem_singleton_self _), q, hid, hip⟩
    · obtain ⟨hmem, hq⟩ := hs.listed id p h
      exact ⟨List.mem_append_left _ hmem, hq⟩
  case kept =>
    intro a ha
    have hnew : (s.merge q).phones q.id = some device := by
      rw [hphones, Function.update_self]
    obtain ha | ha := List.mem_append.1 ha
    · obtain ⟨id, p, hp, rfl⟩ := hs.kept a ha
      by_cases hid : id = q.id
      · -- The phone is replaced by one with the same address.
        obtain ⟨-, r, hr, hpr⟩ := hs.listed id p hp
        exact ⟨q.id, device, hnew, hip.trans ((Phone.ip_eq_of_id (hid ▸ hr)).trans hpr.symm)⟩
      · refine ⟨id, p, ?_, rfl⟩
        rw [hphones, Function.update_of_ne hid]
        exact hp
    · exact ⟨q.id, device, hnew, hip.trans (List.mem_singleton.1 ha).symm⟩

theorem merges (results : List Phone) (hs : Inv addresses s) :
    Inv (addresses ++ results.map Phone.ip) (results.foldl State.merge s) := by
  induction results generalizing addresses s with
  | nil =>
    rw [List.map_nil, List.append_nil]
    exact hs
  | cons q results ih =>
    rw [List.map_cons, List.append_cons, List.foldl_cons]
    exact ih (hs.merge q)

/-- Only the registry matters. -/
theorem of_phones (hs : Inv addresses s) {t : State} (h : t.phones = s.phones) : Inv addresses t :=
  ⟨h ▸ hs.clear, h ▸ hs.listed, h ▸ hs.kept⟩

theorem disconnect (hs : Inv addresses s) : Inv addresses s.disconnect := by
  unfold State.disconnect
  split
  · exact hs.of_phones rfl
  · exact hs

/-- **Connecting** finds no phone under the host. -/
theorem connect {reaches : String → String → Prop} (hreaches : ∀ (p : Phone) a, ¬reaches p.id a)
    (hs : Inv addresses s) {host : String} {reached : Option String}
    (h : (Event.connect host reached).Possible reaches) :
    Inv addresses (s.connect host reached) := by
  cases reached with
  | none => exact hs.disconnect
  | some address =>
    have hnone : s.disconnect.phones host = none := by
      cases hp : s.disconnect.phones host with
      | none => rfl
      | some p =>
        obtain ⟨-, q, rfl, -⟩ := hs.disconnect.listed host p hp
        exact absurd h (hreaches q address)
    refine hs.disconnect.of_phones ?_
    show (match s.disconnect.phones host with
      | some p => Function.update s.disconnect.phones host (some { p with connected := true })
      | none => s.disconnect.phones) = _
    rw [hnone]

/-- **An event** adds the addresses that it finds. -/
theorem next {reaches : String → String → Prop} (hreaches : ∀ (p : Phone) a, ¬reaches p.id a)
    (hs : Inv addresses s) {e : Event} (h : e.Possible reaches) :
    Inv (addresses ++ found [e]) (s.next e) := by
  have hnothing : addresses ++ [] = addresses := List.append_nil _
  cases e with
  | scan results =>
    cases results with
    | none => exact hnothing.symm ▸ hs
    | some results =>
      show Inv (addresses ++ (results.map Phone.ip ++ [])) _
      rw [List.append_nil]
      exact hs.merges results
  | connect host reached => exact hnothing.symm ▸ hs.connect hreaches h
  | disconnect => exact hnothing.symm ▸ hs.disconnect

end Inv

/-- The registry after a sequence of events. -/
theorem inv_run {reaches : String → String → Prop} (hreaches : ∀ (p : Phone) a, ¬reaches p.id a) :
    ∀ es : List Event, (∀ e ∈ es, e.Possible reaches) → Inv (found es) (run es) := by
  intro es
  induction es using List.reverseRecOn with
  | nil => exact fun _ ↦ inv_init
  | append_singleton es e ih =>
    intro hes
    rw [run, List.foldl_append, found, List.flatMap_append]
    exact (ih fun e he ↦ hes e (List.mem_append_left _ he)).next hreaches
      (hes e (List.mem_append_right _ (List.mem_singleton_self e)))

/-- The address of the controller after an event. -/
theorem address_next (s : State) (e : Event) :
    (s.next e).address =
      match e with
      | .scan _ => s.address
      | .connect _ reached => reached
      | .disconnect => none := by
  have hmerges : ∀ (results : List Phone) (s : State),
      (results.foldl State.merge s).address = s.address := by
    intro results
    induction results with
    | nil => exact fun _ ↦ rfl
    | cons p results ih => exact fun s ↦ ih (s.merge p)
  have hdisconnect : s.disconnect.address = none := by
    unfold State.disconnect
    split
    · rfl
    · rename_i h
      exact Option.not_isSome_iff_eq_none.1 h
  cases e with
  | scan results =>
    cases results with
    | none => rfl
    | some results => exact hmerges results s
  | connect host reached =>
    cases reached with
    | none => exact hdisconnect
    | some address => rfl
  | disconnect => exact hdisconnect

theorem address_run (es : List Event) : (run es).address = connectedTo es := by
  induction es using List.reverseRecOn with
  | nil => rfl
  | append_singleton es e ih =>
    rw [run, connectedTo, List.foldl_append, List.foldl_append]
    show ((run es).next e).address = _
    rw [address_next, ih]
    rfl

/-- **The flags of the registry** are right exactly as long as the controller is not connected to an
address that a scan has found. A key of the registry is neither an address nor a host name, so no
dial of it succeeds. -/
theorem registry_flag_iff (reaches : String → String → Prop)
    (hreaches : ∀ (p : Phone) a, ¬reaches p.id a) (hes : ∀ e ∈ es, e.Possible reaches) :
    FlagsRight (run es) ↔ ∀ a, connectedTo es = some a → a ∉ found es := by
  have hs := inv_run hreaches es hes
  rw [← address_run]
  constructor
  · intro h a ha hfound
    obtain ⟨id, p, hp, rfl⟩ := hs.kept a hfound
    have hset := (h.connected id p hp).2 ha
    rw [hs.clear id p hp] at hset
    exact Bool.noConfusion hset
  · refine fun h ↦ ⟨fun id p hp ↦ ?_, fun id _ p _ hp _ hset ↦ ?_⟩
    · refine iff_of_false (fun hset ↦ ?_) fun haddress ↦ h p.ip haddress (hs.listed id p hp).1
      rw [hs.clear id p hp] at hset
      exact Bool.noConfusion hset
    · rw [hs.clear id p hp] at hset
      exact Bool.noConfusion hset

/-- A phone that a scan finds. -/
def desk : Phone := ⟨"desk", "192.168.1.20", 5000, by decide⟩

/-- An address is reached at itself. -/
def literal (host address : String) : Prop :=
  host = address ∧ ':' ∉ host.toList

theorem not_literal_id (p : Phone) (a : String) : ¬literal p.id a := by
  rintro ⟨-, h⟩
  refine h ?_
  rw [Phone.id, String.toList_append, String.toList_append]
  exact List.mem_append_left _ (List.mem_append_right _ (List.mem_singleton_self ':'))

/-- While the controller is connected to another phone, the flags are right. -/
theorem registry_flag_iff_other :
    FlagsRight (run [.scan (some [desk]), .connect "192.168.1.21" (some "192.168.1.21")]) := by
  refine (registry_flag_iff literal not_literal_id fun e he ↦ ?_).2 fun a ha ↦ ?_
  · obtain rfl | he := List.mem_cons.1 he
    · exact trivial
    · rw [List.mem_singleton.1 he]
      exact ⟨rfl, by decide⟩
  · obtain rfl : "192.168.1.21" = a := Option.some.inj ha
    decide

/-- **The flag is not set**: the phone that a scan has found stays without the flag when the
controller connects to it. -/
theorem flag_not_set :
    ¬∀ es : List Event, (∀ e ∈ es, e.Possible literal) → FlagsRight (run es) := by
  intro hall
  have hpossible : ∀ e ∈ [Event.scan (some [desk]), .connect "192.168.1.20" (some "192.168.1.20")],
      e.Possible literal := by
    intro e he
    obtain rfl | he := List.mem_cons.1 he
    · exact trivial
    · rw [List.mem_singleton.1 he]
      exact ⟨rfl, by decide⟩
  have hright := (hall _ hpossible).connected desk.id
    ⟨desk.id, "desk", "192.168.1.20", [5000], false⟩ rfl
  exact Bool.noConfusion (hright.2 rfl)

end AllRelay.PhoneRegistry
