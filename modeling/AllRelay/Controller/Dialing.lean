import AllRelay.Controller.State
import AllRelay.Library.LabelledSystem
import Mathlib.Algebra.GroupWithZero.Nat
import Mathlib.Data.List.Nodup

/-!
# Dialing

`ConnectContext` dials every requested stream on a goroutine of its own, which retries, and collects
the outcomes in whatever order they come. A socket counts when the handshake byte has been read from
it. Beside each socket stands a watcher that closes it when the context is cancelled.

Each socket has one place (`Inv.placed`): a goroutine that is not done with it, the channel of the
outcomes, a slot, or it is closed. The call returns a connection with a socket for each requested
stream, or closes every socket and returns an error (`dialing_all_or_nothing`).
-/

open LabelledSystem

namespace AllRelay.Dialing

/-! ### The state -/

/-- The byte that the phone sends first. -/
def dummyByte : UInt8 := 0xAB

/-- The capacity of `results`. -/
def resultsCapacity : ℕ := 5

/-- Why a dial has failed. -/
inductive DialError where
  /-- `ctx.Err()`. -/
  | cancelled
  /-- `dial %s`. -/
  | dial (name : StreamId)
  /-- `read dummy byte (%s)`. -/
  | readDummyByte (name : StreamId)
  /-- `unexpected dummy byte (%s): 0x%02x`. -/
  | unexpectedDummyByte (name : StreamId) (dummy : UInt8)
deriving DecidableEq, Repr

/-- Where the goroutine of a stream is; `left` attempts may follow the one that it is in. -/
inductive Task where
  /-- Before the check of the context. -/
  | checking (left : ℕ)
  /-- In `DialContext`. -/
  | dialing (left : ℕ)
  /-- Waiting for the handshake. -/
  | reading (left : ℕ) (conn : SocketId)
  /-- About to close the socket; `dummy` is what was read. -/
  | dropping (left : ℕ) (conn : SocketId) (dummy : Option UInt8)
  /-- The attempt has failed. -/
  | failed (left : ℕ) (err : DialError)
  /-- About to send its result. -/
  | reporting (result : Except DialError SocketId)
  /-- It has sent its result, or was not started. -/
  | done

/-- A goroutine that has nothing left to do. -/
def Task.isDone : Task → Bool
  | .done => true
  | _ => false

/-- The socket that a goroutine is not done with. -/
def Task.conn : Task → Option SocketId
  | .reading _ c => some c
  | .dropping _ c _ => some c
  | .reporting (.ok c) => some c
  | _ => none

theorem Task.conn_of_isDone {p : Task} (h : p.isDone = true) : p.conn = none := by
  cases p with
  | done => rfl
  | checking | dialing | reading | dropping | failed | reporting => exact Bool.noConfusion h

/-- Where `ConnectContext` itself is. -/
inductive Main where
  /-- Receiving results. -/
  | collecting
  /-- In `Close`, after its section. -/
  | closing (conns : List SocketId) (err : DialError)
  /-- It has returned. -/
  | returned (result : Except DialError Connection)

/-- The sockets that `Close` has still to close. -/
def Main.toClose : Main → List SocketId
  | .closing conns _ => conns
  | _ => []

/-- The call fails, or has failed. -/
def Main.fails : Main → Bool
  | .closing _ _ => true
  | .returned (.error _) => true
  | _ => false

/-- A call of `ConnectContext`. -/
structure State where
  /-- The context is cancelled. -/
  cancelled : Bool
  /-- The goroutines. -/
  task : StreamId → Task
  /-- The channel `results`. -/
  results : List (StreamId × Except DialError SocketId)
  /-- `conn`. -/
  conn : Connection
  /-- `firstErr`. -/
  firstErr : Option DialError
  main : Main
  /-- The sockets whose watcher is in its `select`. -/
  watched : List SocketId
  /-- The sockets whose `stopDone` is closed. -/
  stopped : List SocketId
  /-- The sockets that are closed. -/
  shut : List SocketId
  /-- History: the sockets that were dialed. -/
  dialed : List SocketId
  /-- History: the sockets from which the handshake byte was read, with their streams. -/
  greeted : List (StreamId × SocketId)

/-- Where the goroutine of a stream starts. Only `control` is dialed without a retry. -/
def firstTask : StreamId → Task
  | .screen => .checking 5
  | .camera => .checking 7
  | .mic => .checking 4
  | .speaker => .checking 4
  | .control => .dialing 0

/-- A call for the requested streams. -/
def init (requested : StreamId → Bool) : State where
  cancelled := false
  task x := if requested x then firstTask x else .done
  results := []
  conn := ⟨false, fun _ ↦ none⟩
  firstErr := none
  main := .collecting
  watched := []
  stopped := []
  shut := []
  dialed := []
  greeted := []

/-- What a goroutine meets in its step. -/
structure Outcome where
  /-- The socket that a dial yields. -/
  conn : Option SocketId
  /-- The byte that a read yields, unless it fails. -/
  dummy : Option UInt8
  /-- A `select` takes the case `ctx.Done()`. -/
  ctxDone : Bool
deriving DecidableEq, Repr

/-- The steps. -/
inductive Label where
  /-- The context is cancelled. -/
  | cancel
  /-- The goroutine of a stream moves on. -/
  | task (x : StreamId) (o : Outcome)
  /-- A watcher leaves its `select`. -/
  | watcher (conn : SocketId) (ctxDone : Bool)
  /-- `ConnectContext` moves on. -/
  | main
deriving DecidableEq, Repr

/-! ### The steps -/

namespace State

/-- The goroutine of a stream moves on. -/
def go (s : State) (x : StreamId) (p : Task) : State :=
  { s with task := Function.update s.task x p }

/-- The error of an attempt whose socket was closed. -/
def dropError (s : State) (x : StreamId) : Option UInt8 → DialError
  | none => if s.cancelled then .cancelled else .readDummyByte x
  | some b => .unexpectedDummyByte x b

/-- The next step of a goroutine: `connectPortWithRetryContext` and `connectPortContext`. -/
def taskStep (s : State) (x : StreamId) (o : Outcome) : Option State :=
  match s.task x with
  | .checking left =>
    some (s.go x (if s.cancelled then .reporting (.error .cancelled) else .dialing left))
  | .dialing left =>
    match o.conn with
    | none => some (s.go x (.failed left (.dial x)))
    | some c =>
      -- A dial yields a new socket, and its watcher starts.
      if c ∈ s.dialed then none
      else some { s.go x (.reading left c) with dialed := c :: s.dialed, watched := c :: s.watched }
  | .reading left c =>
    match o.dummy with
    | none => some (s.go x (.dropping left c none))
    | some b =>
      -- A read of a closed socket fails.
      if c ∈ s.shut then none
      else if b = dummyByte then
        some { s.go x (.reporting (.ok c)) with
          stopped := c :: s.stopped, greeted := (x, c) :: s.greeted }
      else some (s.go x (.dropping left c (some b)))
  | .dropping left c dummy =>
    some { s.go x (.failed left (s.dropError x dummy)) with
      shut := c :: s.shut, stopped := c :: s.stopped }
  | .failed 0 err => some (s.go x (.reporting (.error err)))
  | .failed (left + 1) _ =>
    if o.ctxDone then
      if s.cancelled then some (s.go x (.reporting (.error .cancelled))) else none
    else some (s.go x (.checking left))
  | .reporting result =>
    if s.results.length < resultsCapacity then
      some { s.go x .done with results := s.results ++ [(x, result)] }
    else none
  | .done => none

/-- A watcher leaves its `select`. -/
def watcherStep (s : State) (c : SocketId) (ctxDone : Bool) : Option State :=
  if c ∈ s.watched then
    if ctxDone then
      if s.cancelled then some { s with watched := s.watched.erase c, shut := c :: s.shut }
      else none
    else if c ∈ s.stopped then some { s with watched := s.watched.erase c }
    else none
  else none

/-- A result is received. -/
def collect (s : State) (x : StreamId) : Except DialError SocketId → State
  | .ok c => { s with conn := ⟨s.conn.closed, Function.update s.conn.slot x (some c)⟩ }
  | .error err =>
    { s with
      conn := ⟨s.conn.closed, Function.update s.conn.slot x none⟩
      firstErr := s.firstErr.or (some err) }

/-- Every goroutine has sent its result. -/
def allDone (s : State) : Prop :=
  ∀ x ∈ StreamId.all, (s.task x).isDone = true

instance (s : State) : Decidable s.allDone :=
  inferInstanceAs (Decidable (∀ x ∈ StreamId.all, (s.task x).isDone = true))

/-- The next step of `ConnectContext`. -/
def mainStep (s : State) : Option State :=
  match s.main with
  | .collecting =>
    match s.results with
    | (x, result) :: results => some ({ s with results }.collect x result)
    | [] =>
      if s.allDone then
        match s.firstErr with
        | none => some { s with main := .returned (.ok s.conn) }
        | some err =>
          some { s with
            main := .closing (StreamId.all.filterMap s.conn.slot) err
            conn := ⟨true, fun _ ↦ none⟩ }
      else none
  | .closing (c :: conns) err => some { s with main := .closing conns err, shut := c :: s.shut }
  | .closing [] err => some { s with main := .returned (.error err) }
  | .returned _ => none

end State

/-- One step. -/
def step (s : State) : Label → Option State
  | .cancel => if s.cancelled then none else some { s with cancelled := true }
  | .task x o => s.taskStep x o
  | .watcher c ctxDone => s.watcherStep c ctxDone
  | .main => s.mainStep

/-! ### The steps of a goroutine -/

/-- A bound for the steps that a goroutine, with its sockets and its result, has still to take. -/
def Task.weight : Task → ℕ
  | .checking left => 6 * left + 8
  | .dialing left => 6 * left + 7
  | .reading left _ => 6 * left + 5
  | .dropping left _ _ => 6 * left + 4
  | .failed left _ => 6 * left + 3
  | .reporting _ => 2
  | .done => 0

variable {requested : StreamId → Bool} {s t : State} {x : StreamId} {p : Task}

/-- **A goroutine moves on** to `p`, with the sockets that are watched, closed and dialed and those
that have sent the handshake byte. Its socket stays with it, or is closed. -/
structure Moves (s : State) (x : StreamId) (p : Task) (watched shut dialed : List SocketId)
    (greeted : List (StreamId × SocketId)) : Prop where
  underway : (s.task x).isDone = false
  undone : p.isDone = false
  shut_subset : s.shut ⊆ shut
  greeted_subset : s.greeted ⊆ greeted
  reported : ∀ c, p = .reporting (.ok c) → (x, c) ∈ greeted
  dialed_or : ∀ c ∈ dialed, c ∈ s.dialed ∨ p.conn = some c
  kept : ∀ c, (s.task x).conn = some c → c ∈ shut ∨ p.conn = some c
  weight_lt : p.weight + watched.length < (s.task x).weight + s.watched.length

/-- A goroutine that moves on, with the socket that it had. -/
theorem Moves.go (hx : (s.task x).isDone = false) (hp : p.isDone = false)
    (hreported : ∀ c, p ≠ .reporting (.ok c)) (hconn : p.conn = (s.task x).conn)
    (hweight : p.weight < (s.task x).weight) :
    Moves s x p s.watched s.shut s.dialed s.greeted where
  underway := hx
  undone := hp
  shut_subset := List.Subset.refl _
  greeted_subset := List.Subset.refl _
  reported c hc := absurd hc (hreported c)
  dialed_or _ hc := .inl hc
  kept _ hc := .inr (hconn.trans hc)
  weight_lt := Nat.add_lt_add_right hweight _

/-- What a goroutine does in a step. -/
theorem taskStep_cases {o : Outcome} (h : s.taskStep x o = some t) :
    (∃ result, s.task x = .reporting result ∧
      t = { s.go x .done with results := s.results ++ [(x, result)] }) ∨
    ∃ p watched stopped shut dialed greeted, Moves s x p watched shut dialed greeted ∧
      t = { s with
        task := Function.update s.task x p, watched, stopped, shut, dialed, greeted } := by
  unfold State.taskStep at h
  cases hx : s.task x with
  | checking left =>
    simp only [hx] at h
    refine .inr ⟨_, _, _, _, _, _, .go (by rw [hx]; rfl) ?_ ?_ ?_ ?_, (Option.some.inj h).symm⟩
    · split <;> rfl
    · intro c hc
      split at hc <;> cases hc
    · rw [hx]
      split <;> rfl
    · rw [hx]
      split <;> simp only [Task.weight] <;> omega
  | dialing left =>
    simp only [hx] at h
    split at h
    · refine .inr ⟨_, _, _, _, _, _, .go (by rw [hx]; rfl) rfl (fun c hc ↦ by cases hc)
        (by rw [hx]; rfl) ?_, (Option.some.inj h).symm⟩
      rw [hx]
      simp only [Task.weight]
      omega
    · obtain ⟨-, h⟩ := Option.ite_none_left_eq_some.1 h
      refine .inr ⟨_, _, _, _, _, _, ?_, (Option.some.inj h).symm⟩
      constructor
      case underway => rw [hx]; rfl
      case undone => rfl
      case shut_subset => exact List.Subset.refl _
      case greeted_subset => exact List.Subset.refl _
      case reported => exact fun c hc ↦ by cases hc
      case dialed_or =>
        intro c hc
        obtain rfl | hc := List.mem_cons.1 hc
        · exact .inr rfl
        · exact .inl hc
      case kept => exact fun c hc ↦ by rw [hx] at hc; cases hc
      case weight_lt =>
        rw [hx, List.length_cons]
        simp only [Task.weight]
        omega
  | reading left c' =>
    simp only [hx] at h
    have hdrop : ∀ dummy, Moves s x (.dropping left c' dummy) s.watched s.shut s.dialed s.greeted :=
      fun dummy ↦ .go (by rw [hx]; rfl) rfl (fun c hc ↦ by cases hc) (by rw [hx]; rfl)
        (by rw [hx]; exact Nat.lt_succ_self _)
    split at h
    · exact .inr ⟨_, _, _, _, _, _, hdrop _, (Option.some.inj h).symm⟩
    · obtain ⟨-, h⟩ := Option.ite_none_left_eq_some.1 h
      split at h
      · refine .inr ⟨_, _, _, _, _, _, ?_, (Option.some.inj h).symm⟩
        constructor
        case underway => rw [hx]; rfl
        case undone => rfl
        case shut_subset => exact List.Subset.refl _
        case greeted_subset => exact List.subset_cons_self _ _
        case reported =>
          intro c hc
          obtain rfl : c' = c := Except.ok.inj (Task.reporting.inj hc)
          exact List.mem_cons_self
        case dialed_or => exact fun c hc ↦ .inl hc
        case kept =>
          intro c hc
          rw [hx] at hc
          exact .inr hc
        case weight_lt =>
          rw [hx]
          simp only [State.go, Task.weight]
          omega
      · exact .inr ⟨_, _, _, _, _, _, hdrop _, (Option.some.inj h).symm⟩
  | dropping left c' dummy =>
    simp only [hx] at h
    refine .inr ⟨_, _, _, _, _, _, ?_, (Option.some.inj h).symm⟩
    constructor
    case underway => rw [hx]; rfl
    case undone => rfl
    case shut_subset => exact List.subset_cons_self _ _
    case greeted_subset => exact List.Subset.refl _
    case reported => exact fun c hc ↦ by cases hc
    case dialed_or => exact fun c hc ↦ .inl hc
    case kept =>
      intro c hc
      rw [hx] at hc
      exact .inl (Option.some.inj hc ▸ List.mem_cons_self)
    case weight_lt =>
      rw [hx]
      simp only [State.go, Task.weight]
      omega
  | failed left err =>
    have hgo : ∀ {p : Task}, p.isDone = false → p.conn = none → p.weight < 6 * left + 3 →
        Moves s x p s.watched s.shut s.dialed s.greeted := by
      intro p hp hconn hweight
      refine .go (by rw [hx]; rfl) hp (fun c hc ↦ ?_) (by rw [hx, hconn]; rfl)
        (by rw [hx]; exact hweight)
      rw [hc] at hconn
      cases hconn
    cases left with
    | zero =>
      simp only [hx] at h
      exact .inr ⟨_, _, _, _, _, _, hgo rfl rfl (by simp only [Task.weight]; omega),
        (Option.some.inj h).symm⟩
    | succ left =>
      simp only [hx] at h
      split at h
      · obtain ⟨-, h⟩ := Option.ite_none_right_eq_some.1 h
        exact .inr ⟨_, _, _, _, _, _, hgo rfl rfl (by simp only [Task.weight]; omega),
          (Option.some.inj h).symm⟩
      · exact .inr ⟨_, _, _, _, _, _, hgo rfl rfl (by simp only [Task.weight]; omega),
          (Option.some.inj h).symm⟩
  | reporting result =>
    simp only [hx] at h
    obtain ⟨-, h⟩ := Option.ite_none_right_eq_some.1 h
    exact .inl ⟨result, rfl, (Option.some.inj h).symm⟩
  | done =>
    simp only [hx] at h
    exact absurd h (Option.some_ne_none _).symm

/-! ### The invariant -/

/-- What holds between any two steps. -/
structure Inv (requested : StreamId → Bool) (s : State) : Prop where
  /-- Only requested streams are dialed. -/
  unrequested : ∀ x, requested x = false → (s.task x).isDone = true ∧ s.conn.slot x = none ∧
    ∀ r, (x, r) ∉ s.results
  /-- A goroutine that is under way has sent nothing. -/
  underway : ∀ x, (s.task x).isDone = false → s.conn.slot x = none ∧ ∀ r, (x, r) ∉ s.results
  /-- A result in the channel is the only one of its stream. -/
  sent : ∀ x r, (x, r) ∈ s.results → s.conn.slot x = none
  single : (s.results.map Prod.fst).Nodup
  /-- The handshake byte was read from a socket that is passed on. -/
  reported : ∀ x c, s.task x = .reporting (.ok c) → (x, c) ∈ s.greeted
  carried : ∀ x c, (x, .ok c) ∈ s.results → (x, c) ∈ s.greeted
  slots : ∀ x c, s.conn.slot x = some c → (x, c) ∈ s.greeted
  /-- The outcome of a goroutine that is done is on its way or collected. -/
  finished : ∀ x, requested x = true → (s.task x).isDone = true →
    (∃ r, (x, r) ∈ s.results) ∨ (∃ c, s.conn.slot x = some c) ∨ s.firstErr.isSome = true
  /-- Where the sockets are. -/
  placed : ∀ c ∈ s.dialed, c ∈ s.shut ∨ (∃ x, (s.task x).conn = some c) ∨
    (∃ x, (x, .ok c) ∈ s.results) ∨ (∃ x, s.conn.slot x = some c) ∨ c ∈ s.main.toClose
  /-- `ConnectContext` receives until there is nothing left to receive. -/
  settled : s.main ≠ .collecting → (∀ x, (s.task x).isDone = true) ∧ s.results = []
  /-- It returns the connection if there was no error. -/
  returned : ∀ conn, s.main = .returned (.ok conn) → conn = s.conn ∧ s.firstErr = none
  /-- Otherwise it takes the sockets out of the slots. -/
  emptied : s.main.fails = true → ∀ x, s.conn.slot x = none

theorem inv_init (requested : StreamId → Bool) : Inv requested (init requested) where
  unrequested x hx := by
    refine ⟨?_, rfl, fun _ ↦ List.not_mem_nil⟩
    show (if requested x = true then firstTask x else .done).isDone = true
    rw [hx]
    rfl
  underway _ _ := ⟨rfl, fun _ ↦ List.not_mem_nil⟩
  sent _ _ h := absurd h List.not_mem_nil
  single := List.nodup_nil
  reported x c h := by
    have htask : (if requested x = true then firstTask x else .done) = .reporting (.ok c) := h
    split at htask
    · cases x <;> exact Task.noConfusion htask
    · exact Task.noConfusion htask
  carried _ _ h := absurd h List.not_mem_nil
  slots _ _ h := absurd h.symm (Option.some_ne_none _)
  finished x hx h := by
    have htask : (if requested x = true then firstTask x else .done).isDone = true := h
    rw [if_pos hx] at htask
    cases x <;> exact Bool.noConfusion htask
  placed _ h := absurd h List.not_mem_nil
  settled h := absurd rfl h
  returned _ h := Main.noConfusion h
  emptied h := Bool.noConfusion h

namespace Inv

/-- While a goroutine is under way, results are collected. -/
theorem collecting (hs : Inv requested s) (hx : (s.task x).isDone = false) :
    s.main = .collecting := by
  by_contra hmain
  rw [(hs.settled hmain).1 x] at hx
  exact Bool.noConfusion hx

/-- A goroutine moves on. -/
theorem move (hs : Inv requested s) {watched stopped shut dialed : List SocketId}
    {greeted : List (StreamId × SocketId)} (hm : Moves s x p watched shut dialed greeted) :
    Inv requested { s with
      task := Function.update s.task x p, watched, stopped, shut, dialed, greeted } where
  unrequested y hy := by
    obtain ⟨hdone, hrest⟩ := hs.unrequested y hy
    have hne : y ≠ x := by
      rintro rfl
      rw [hm.underway] at hdone
      exact Bool.noConfusion hdone
    refine ⟨?_, hrest⟩
    show (Function.update s.task x p y).isDone = true
    rwa [Function.update_of_ne hne]
  underway y hy := by
    by_cases hyx : y = x
    · subst hyx
      exact hs.underway y hm.underway
    · refine hs.underway y ?_
      have hupdate : (Function.update s.task x p y).isDone = false := hy
      rwa [Function.update_of_ne hyx] at hupdate
  sent := hs.sent
  single := hs.single
  reported y c h := by
    have hupdate : Function.update s.task x p y = .reporting (.ok c) := h
    by_cases hyx : y = x
    · subst hyx
      rw [Function.update_self] at hupdate
      exact hm.reported c hupdate
    · rw [Function.update_of_ne hyx] at hupdate
      exact hm.greeted_subset (hs.reported y c hupdate)
  carried y c h := hm.greeted_subset (hs.carried y c h)
  slots y c h := hm.greeted_subset (hs.slots y c h)
  finished y hy h := by
    have hupdate : (Function.update s.task x p y).isDone = true := h
    by_cases hyx : y = x
    · subst hyx
      rw [Function.update_self, hm.undone] at hupdate
      exact Bool.noConfusion hupdate
    · rw [Function.update_of_ne hyx] at hupdate
      exact hs.finished y hy hupdate
  placed c hc := by
    have hself : p.conn = some c → ∃ y, (Function.update s.task x p y).conn = some c :=
      fun h ↦ ⟨x, by rwa [Function.update_self]⟩
    obtain hc | hc := hm.dialed_or c hc
    · obtain h | ⟨y, hy⟩ | h := hs.placed c hc
      · exact .inl (hm.shut_subset h)
      · by_cases hyx : y = x
        · subst hyx
          exact (hm.kept c hy).imp_right fun h ↦ .inl (hself h)
        · refine .inr (.inl ⟨y, ?_⟩)
          show (Function.update s.task x p y).conn = some c
          rwa [Function.update_of_ne hyx]
      · exact .inr (.inr h)
    · exact .inr (.inl (hself hc))
  settled h := absurd (hs.collecting hm.underway) h
  returned := hs.returned
  emptied := hs.emptied

/-- A goroutine sends its result. -/
theorem report (hs : Inv requested s) {result : Except DialError SocketId}
    (hx : s.task x = .reporting result) :
    Inv requested { s.go x .done with results := s.results ++ [(x, result)] } := by
  have hunderway : (s.task x).isDone = false := by
    rw [hx]
    rfl
  obtain ⟨hslot, hunsent⟩ := hs.underway x hunderway
  have hdone : ∀ y, (s.task y).isDone = true →
      (Function.update s.task x .done y).isDone = true := by
    intro y hy
    by_cases hyx : y = x
    · rw [hyx, Function.update_self]
      rfl
    · rwa [Function.update_of_ne hyx]
  have hmem : ∀ {y r}, (y, r) ∈ s.results ++ [(x, result)] →
      (y, r) ∈ s.results ∨ y = x ∧ r = result := by
    intro y r h
    obtain h | h := List.mem_append.1 h
    · exact .inl h
    · exact .inr (Prod.mk.inj (List.mem_singleton.1 h))
  constructor
  case unrequested =>
    intro y hy
    obtain ⟨htask, hempty, hnone⟩ := hs.unrequested y hy
    refine ⟨hdone y htask, hempty, fun r hr ↦ ?_⟩
    obtain hr | ⟨rfl, -⟩ := hmem hr
    · exact hnone r hr
    · rw [hunderway] at htask
      exact Bool.noConfusion htask
  case underway =>
    intro y hy
    have hupdate : (Function.update s.task x .done y).isDone = false := hy
    by_cases hyx : y = x
    · rw [hyx, Function.update_self] at hupdate
      exact Bool.noConfusion hupdate
    · rw [Function.update_of_ne hyx] at hupdate
      obtain ⟨hempty, hnone⟩ := hs.underway y hupdate
      refine ⟨hempty, fun r hr ↦ ?_⟩
      obtain hr | ⟨h, -⟩ := hmem hr
      · exact hnone r hr
      · exact hyx h
  case sent =>
    intro y r hr
    obtain hr | ⟨rfl, -⟩ := hmem hr
    · exact hs.sent y r hr
    · exact hslot
  case single =>
    show ((s.results ++ [(x, result)]).map Prod.fst).Nodup
    rw [List.map_append, List.nodup_append]
    refine ⟨hs.single, List.nodup_singleton x, fun y hy z hz hyz ↦ ?_⟩
    obtain ⟨⟨y', r⟩, hr, rfl⟩ := List.mem_map.1 hy
    obtain rfl : y' = x := hyz.trans (List.mem_singleton.1 hz)
    exact hunsent r hr
  case reported =>
    intro y c h
    have hupdate : Function.update s.task x .done y = .reporting (.ok c) := h
    by_cases hyx : y = x
    · rw [hyx, Function.update_self] at hupdate
      exact Task.noConfusion hupdate
    · rw [Function.update_of_ne hyx] at hupdate
      exact hs.reported y c hupdate
  case carried =>
    intro y c hr
    obtain hr | ⟨rfl, rfl⟩ := hmem hr
    · exact hs.carried y c hr
    · exact hs.reported y c hx
  case slots => exact hs.slots
  case finished =>
    intro y hy h
    have hupdate : (Function.update s.task x .done y).isDone = true := h
    by_cases hyx : y = x
    · exact .inl ⟨result, List.mem_append_right _ (hyx ▸ List.mem_singleton_self _)⟩
    · rw [Function.update_of_ne hyx] at hupdate
      exact (hs.finished y hy hupdate).imp_left fun ⟨r, hr⟩ ↦ ⟨r, List.mem_append_left _ hr⟩
  case placed =>
    intro c hc
    obtain h | ⟨y, hy⟩ | ⟨y, hy⟩ | h := hs.placed c hc
    · exact .inl h
    · by_cases hyx : y = x
      · rw [hyx, hx] at hy
        cases result with
        | error e => exact absurd hy.symm (Option.some_ne_none c)
        | ok c' =>
          obtain rfl : c' = c := Option.some.inj hy
          exact .inr (.inr (.inl ⟨x, List.mem_append_right _ (List.mem_singleton_self _)⟩))
      · refine .inr (.inl ⟨y, ?_⟩)
        show (Function.update s.task x .done y).conn = some c
        rwa [Function.update_of_ne hyx]
    · exact .inr (.inr (.inl ⟨y, List.mem_append_left _ hy⟩))
    · exact .inr (.inr (.inr h))
  case settled => exact fun h ↦ absurd (hs.collecting hunderway) h
  case returned => exact hs.returned
  case emptied => exact hs.emptied

/-- A received result becomes the slot of its stream, or an error. -/
theorem collect_spec (s : State) (x : StreamId) (result : Except DialError SocketId) :
    ∃ (conn : Option SocketId) (firstErr : Option DialError),
      s.collect x result =
        { s with conn := ⟨s.conn.closed, Function.update s.conn.slot x conn⟩, firstErr } ∧
      (∀ c, conn = some c ↔ result = .ok c) ∧ (conn = none → firstErr.isSome = true) ∧
      (s.firstErr.isSome = true → firstErr.isSome = true) := by
  cases result with
  | ok c =>
    refine ⟨some c, s.firstErr, rfl, fun c' ↦ ?_, fun h ↦ absurd h (Option.some_ne_none c), id⟩
    rw [Option.some.injEq, Except.ok.injEq]
  | error err =>
    refine ⟨none, s.firstErr.or (some err), rfl, fun c ↦ ?_, fun _ ↦ ?_, fun h ↦ ?_⟩
    · exact iff_of_false (Option.some_ne_none c).symm fun h ↦ by cases h
    · rw [Option.isSome_or, Option.isSome_some, Bool.or_true]
    · rw [Option.isSome_or, h, Bool.true_or]

/-- A result is received. -/
theorem collect (hs : Inv requested s) {result : Except DialError SocketId}
    {results : List (StreamId × Except DialError SocketId)} (hmain : s.main = .collecting)
    (hresults : s.results = (x, result) :: results) :
    Inv requested ({ s with results }.collect x result) := by
  have hhead : (x, result) ∈ s.results := hresults ▸ List.mem_cons_self
  have htail : ∀ {y r}, (y, r) ∈ results → (y, r) ∈ s.results :=
    fun h ↦ hresults ▸ List.mem_cons_of_mem _ h
  have hsingle : x ∉ results.map Prod.fst ∧ (results.map Prod.fst).Nodup := by
    have h := hs.single
    rwa [hresults, List.map_cons, List.nodup_cons] at h
  have hne : ∀ {y r}, (y, r) ∈ results → y ≠ x := by
    rintro y r h rfl
    exact hsingle.1 (List.mem_map_of_mem h)
  obtain ⟨conn, firstErr, heq, hconn, herr, hor⟩ := collect_spec { s with results } x result
  rw [heq]
  have hrequested : requested x ≠ false := fun h ↦ (hs.unrequested x h).2.2 _ hhead
  constructor
  case unrequested =>
    intro y hy
    obtain ⟨htask, hempty, hnone⟩ := hs.unrequested y hy
    refine ⟨htask, ?_, fun r hr ↦ hnone r (htail hr)⟩
    show Function.update s.conn.slot x conn y = none
    have hyx : y ≠ x := by
      rintro rfl
      exact hrequested hy
    rwa [Function.update_of_ne hyx]
  case underway =>
    intro y hy
    obtain ⟨hempty, hnone⟩ := hs.underway y hy
    refine ⟨?_, fun r hr ↦ hnone r (htail hr)⟩
    show Function.update s.conn.slot x conn y = none
    have hyx : y ≠ x := by
      rintro rfl
      exact hnone result hhead
    rwa [Function.update_of_ne hyx]
  case sent =>
    intro y r hr
    show Function.update s.conn.slot x conn y = none
    rw [Function.update_of_ne (hne hr)]
    exact hs.sent y r (htail hr)
  case single => exact hsingle.2
  case reported => exact hs.reported
  case carried => exact fun y c hr ↦ hs.carried y c (htail hr)
  case slots =>
    intro y c h
    have hupdate : Function.update s.conn.slot x conn y = some c := h
    by_cases hyx : y = x
    · rw [hyx, Function.update_self, hconn] at hupdate
      rw [hyx]
      exact hs.carried x c (hupdate ▸ hhead)
    · rw [Function.update_of_ne hyx] at hupdate
      exact hs.slots y c hupdate
  case finished =>
    intro y hy htask
    show (∃ r, (y, r) ∈ results) ∨ (∃ c, Function.update s.conn.slot x conn y = some c) ∨
      firstErr.isSome = true
    by_cases hyx : y = x
    · rw [hyx, Function.update_self]
      cases hc : conn with
      | none => exact .inr (.inr (herr hc))
      | some c => exact .inr (.inl ⟨c, rfl⟩)
    · rw [Function.update_of_ne hyx]
      obtain ⟨r, hr⟩ | h := hs.finished y hy htask
      · rw [hresults] at hr
        obtain hr | hr := List.mem_cons.1 hr
        · exact absurd (Prod.mk.inj hr).1 hyx
        · exact .inl ⟨r, hr⟩
      · exact .inr (h.imp_right hor)
  case placed =>
    intro c hc
    have hother : ∀ y, s.conn.slot y = some c → Function.update s.conn.slot x conn y = some c := by
      intro y hy
      have hyx : y ≠ x := by
        rintro rfl
        rw [hs.sent y result hhead] at hy
        exact Option.some_ne_none c hy.symm
      rwa [Function.update_of_ne hyx]
    obtain h | h | ⟨y, hy⟩ | ⟨y, hy⟩ | h := hs.placed c hc
    · exact .inl h
    · exact .inr (.inl h)
    · rw [hresults] at hy
      obtain hy | hy := List.mem_cons.1 hy
      · obtain ⟨rfl, hr⟩ := Prod.mk.inj hy
        refine .inr (.inr (.inr (.inl ⟨y, ?_⟩)))
        show Function.update s.conn.slot y conn y = some c
        rw [Function.update_self]
        exact (hconn c).2 hr.symm
      · exact .inr (.inr (.inl ⟨y, hy⟩))
    · exact .inr (.inr (.inr (.inl ⟨y, hother y hy⟩)))
    · exact .inr (.inr (.inr (.inr h)))
  case settled => exact fun h ↦ absurd hmain h
  case returned =>
    intro c h
    have hret : s.main = .returned (.ok c) := h
    rw [hmain] at hret
    exact Main.noConfusion hret
  case emptied =>
    intro h
    have hfails : s.main.fails = true := h
    rw [hmain] at hfails
    exact Bool.noConfusion hfails

/-- Nothing is left to receive, and there was no error. -/
theorem succeed (hs : Inv requested s) (hresults : s.results = []) (hdone : s.allDone)
    (herr : s.firstErr = none) (hmain : s.main = .collecting) :
    Inv requested { s with main := .returned (.ok s.conn) } where
  unrequested := hs.unrequested
  underway := hs.underway
  sent := hs.sent
  single := hs.single
  reported := hs.reported
  carried := hs.carried
  slots := hs.slots
  finished := hs.finished
  placed c hc := by
    have hplaced := hs.placed c hc
    rw [hmain] at hplaced
    exact hplaced
  settled _ := ⟨fun x ↦ hdone x x.mem_all, hresults⟩
  returned _ h := ⟨(Except.ok.inj (Main.returned.inj h)).symm, herr⟩
  emptied h := Bool.noConfusion h

/-- The same with an error: `Close` takes the sockets out of the slots. -/
theorem fail (hs : Inv requested s) (hresults : s.results = []) (hdone : s.allDone)
    {err : DialError} (herr : s.firstErr = some err) (hmain : s.main = .collecting) :
    Inv requested { s with
      main := .closing (StreamId.all.filterMap s.conn.slot) err
      conn := ⟨true, fun _ ↦ none⟩ } where
  unrequested x hx := ⟨(hs.unrequested x hx).1, rfl, (hs.unrequested x hx).2.2⟩
  underway x hx := ⟨rfl, (hs.underway x hx).2⟩
  sent _ _ _ := rfl
  single := hs.single
  reported := hs.reported
  carried := hs.carried
  slots _ _ h := absurd h.symm (Option.some_ne_none _)
  finished _ _ _ := .inr (.inr (by rw [herr]; rfl))
  placed c hc := by
    obtain h | h | h | ⟨x, hx⟩ | h := hs.placed c hc
    · exact .inl h
    · exact .inr (.inl h)
    · exact .inr (.inr (.inl h))
    · exact .inr (.inr (.inr (.inr (List.mem_filterMap.2 ⟨x, x.mem_all, hx⟩))))
    · rw [hmain] at h
      exact absurd h List.not_mem_nil
  settled _ := ⟨fun x ↦ hdone x x.mem_all, hresults⟩
  returned _ h := Main.noConfusion h
  emptied _ _ := rfl

/-- `Close` goes on when the call fails. -/
theorem goOn (hs : Inv requested s) (hmain : s.main.fails = true) {main : Main}
    {shut : List SocketId} (hmain' : main.fails = true) (hshut : s.shut ⊆ shut)
    (hkept : ∀ c ∈ s.main.toClose, c ∈ shut ∨ c ∈ main.toClose) :
    Inv requested { s with main, shut } where
  unrequested := hs.unrequested
  underway := hs.underway
  sent := hs.sent
  single := hs.single
  reported := hs.reported
  carried := hs.carried
  slots := hs.slots
  finished := hs.finished
  placed c hc := by
    obtain h | h | h | h | h := hs.placed c hc
    · exact .inl (hshut h)
    · exact .inr (.inl h)
    · exact .inr (.inr (.inl h))
    · exact .inr (.inr (.inr (.inl h)))
    · exact (hkept c h).imp_right fun h ↦ .inr (.inr (.inr h))
  settled _ := by
    refine hs.settled fun hcollecting ↦ ?_
    rw [hcollecting] at hmain
    exact Bool.noConfusion hmain
  returned conn h := by
    have hret : main = .returned (.ok conn) := h
    rw [hret] at hmain'
    exact Bool.noConfusion hmain'
  emptied _ := hs.emptied hmain

/-- A watcher closes its socket or not, or the context is cancelled. -/
theorem aside (hs : Inv requested s) {cancelled : Bool} {watched shut : List SocketId}
    (hshut : s.shut ⊆ shut) : Inv requested { s with cancelled, watched, shut } where
  unrequested := hs.unrequested
  underway := hs.underway
  sent := hs.sent
  single := hs.single
  reported := hs.reported
  carried := hs.carried
  slots := hs.slots
  finished := hs.finished
  placed c hc := (hs.placed c hc).imp_left fun h ↦ hshut h
  settled := hs.settled
  returned := hs.returned
  emptied := hs.emptied

/-- A step of a goroutine. -/
theorem taskStep (hs : Inv requested s) {o : Outcome} (h : s.taskStep x o = some t) :
    Inv requested t := by
  obtain ⟨result, hx, rfl⟩ | ⟨p, watched, stopped, shut, dialed, greeted, hm, rfl⟩ :=
    taskStep_cases h
  · exact hs.report hx
  · exact hs.move hm

/-- A step of a watcher. -/
theorem watcherStep (hs : Inv requested s) {c : SocketId} {ctxDone : Bool}
    (h : s.watcherStep c ctxDone = some t) : Inv requested t := by
  unfold State.watcherStep at h
  obtain ⟨-, h⟩ := Option.ite_none_right_eq_some.1 h
  split at h
  · obtain ⟨-, h⟩ := Option.ite_none_right_eq_some.1 h
    exact Option.some.inj h ▸ hs.aside (List.subset_cons_self _ _)
  · obtain ⟨-, h⟩ := Option.ite_none_right_eq_some.1 h
    exact Option.some.inj h ▸ hs.aside (List.Subset.refl _)

/-- A step of `ConnectContext`. -/
theorem mainStep (hs : Inv requested s) (h : s.mainStep = some t) : Inv requested t := by
  unfold State.mainStep at h
  split at h
  · rename_i hmain
    split at h
    · rename_i x result results hresults
      exact Option.some.inj h ▸ hs.collect hmain hresults
    · rename_i hresults
      obtain ⟨hdone, h⟩ := Option.ite_none_right_eq_some.1 h
      split at h
      · rename_i herr
        exact Option.some.inj h ▸ hs.succeed hresults hdone herr hmain
      · rename_i err herr
        exact Option.some.inj h ▸ hs.fail hresults hdone herr hmain
  · rename_i c conns err hmain
    refine Option.some.inj h ▸ hs.goOn (by rw [hmain]; rfl) rfl (List.subset_cons_self _ _)
      fun c' hc ↦ ?_
    rw [hmain] at hc
    obtain rfl | hc := List.mem_cons.1 hc
    · exact .inl List.mem_cons_self
    · exact .inr hc
  · rename_i err hmain
    refine Option.some.inj h ▸ hs.goOn (by rw [hmain]; rfl) rfl (List.Subset.refl _) fun c hc ↦ ?_
    rw [hmain] at hc
    exact absurd hc List.not_mem_nil
  · exact absurd h (Option.some_ne_none _).symm

/-- **Every step** keeps the invariant. -/
theorem step (hs : Inv requested s) {l : Label} (h : Dialing.step s l = some t) :
    Inv requested t := by
  cases l with
  | cancel =>
    obtain ⟨-, h⟩ := Option.ite_none_left_eq_some.1 h
    exact Option.some.inj h ▸ hs.aside (List.Subset.refl _)
  | task x o => exact hs.taskStep h
  | watcher c ctxDone => exact hs.watcherStep h
  | main => exact hs.mainStep h

/-- When the call has returned, a socket is in a slot or closed. -/
theorem accounted (hs : Inv requested s) {result : Except DialError Connection}
    (hmain : s.main = .returned result) {c : SocketId} (hc : c ∈ s.dialed) :
    c ∈ s.shut ∨ ∃ x, s.conn.slot x = some c := by
  obtain ⟨hdone, hresults⟩ := hs.settled (by rw [hmain]; exact Main.noConfusion)
  obtain hshut | ⟨x, hx⟩ | ⟨x, hx⟩ | hslot | hclose := hs.placed c hc
  · exact .inl hshut
  · rw [Task.conn_of_isDone (hdone x)] at hx
    exact absurd hx.symm (Option.some_ne_none c)
  · rw [hresults] at hx
    exact absurd hx List.not_mem_nil
  · exact .inr hslot
  · rw [hmain] at hclose
    exact absurd hclose List.not_mem_nil

/-- The slots of the connection that the call returns. -/
theorem slot_isSome (hs : Inv requested s) {conn : Connection}
    (hmain : s.main = .returned (.ok conn)) (x : StreamId) :
    (s.conn.slot x).isSome = requested x := by
  obtain ⟨-, herr⟩ := hs.returned conn hmain
  obtain ⟨hdone, hresults⟩ := hs.settled (by rw [hmain]; exact Main.noConfusion)
  cases hx : requested x with
  | false => rw [(hs.unrequested x hx).2.1, Option.isSome_none]
  | true =>
    obtain ⟨r, hr⟩ | ⟨c, hc⟩ | hfailed := hs.finished x hx (hdone x)
    · rw [hresults] at hr
      exact absurd hr List.not_mem_nil
    · rw [hc, Option.isSome_some]
    · rw [herr] at hfailed
      exact Bool.noConfusion hfailed

end Inv

/-! ### Termination -/

/-- A bound for the steps of `ConnectContext` itself. -/
def Main.weight : Main → ℕ
  | .collecting => 7
  | .closing conns _ => conns.length + 1
  | .returned _ => 0

/-- A bound for the steps of a call. -/
def State.weight (s : State) : ℕ :=
  (StreamId.all.map fun x ↦ (s.task x).weight).sum + s.results.length + s.main.weight +
    s.watched.length + (!s.cancelled).toNat

/-- What a step of one goroutine does to the sum. -/
theorem sum_update (task : StreamId → Task) (x : StreamId) (p : Task) :
    (StreamId.all.map fun y ↦ (Function.update task x p y).weight).sum + (task x).weight =
      (StreamId.all.map fun y ↦ (task y).weight).sum + p.weight := by
  cases x <;> simp [StreamId.all, Function.update] <;> omega

/-- A goroutine moves on. -/
theorem weight_move {watched stopped shut dialed : List SocketId}
    {greeted : List (StreamId × SocketId)} {results : List (StreamId × Except DialError SocketId)}
    (h : p.weight + watched.length + results.length <
      (s.task x).weight + s.watched.length + s.results.length) :
    State.weight { s with
      task := Function.update s.task x p, watched, stopped, shut, dialed, greeted, results } <
      s.weight := by
  have hsum := sum_update s.task x p
  simp only [State.weight]
  omega

theorem taskStep_weight {o : Outcome} (h : s.taskStep x o = some t) : t.weight < s.weight := by
  obtain ⟨result, hx, rfl⟩ | ⟨p, watched, stopped, shut, dialed, greeted, hm, rfl⟩ :=
    taskStep_cases h
  · refine weight_move ?_
    rw [hx, List.length_append, List.length_singleton]
    simp only [State.go, Task.weight]
    omega
  · exact weight_move (Nat.add_lt_add_right hm.weight_lt _)

theorem watcherStep_weight {c : SocketId} {ctxDone : Bool} (h : s.watcherStep c ctxDone = some t) :
    t.weight < s.weight := by
  unfold State.watcherStep at h
  obtain ⟨hc, h⟩ := Option.ite_none_right_eq_some.1 h
  have hlen := List.length_erase_of_mem hc
  have hpos := List.length_pos_of_mem hc
  split at h
  · obtain ⟨-, h⟩ := Option.ite_none_right_eq_some.1 h
    rw [← Option.some.inj h]
    simp only [State.weight]
    omega
  · obtain ⟨-, h⟩ := Option.ite_none_right_eq_some.1 h
    rw [← Option.some.inj h]
    simp only [State.weight]
    omega

theorem mainStep_weight (h : s.mainStep = some t) : t.weight < s.weight := by
  unfold State.mainStep at h
  split at h
  · rename_i hmain
    split at h
    · rename_i x result results hresults
      rw [← Option.some.inj h]
      cases result <;> simp only [State.collect, State.weight, hresults, List.length_cons] <;> omega
    · obtain ⟨-, h⟩ := Option.ite_none_right_eq_some.1 h
      have hle : (StreamId.all.filterMap s.conn.slot).length ≤ 5 := List.length_filterMap_le _ _
      split at h
      all_goals
        rw [← Option.some.inj h]
        simp only [State.weight, hmain, Main.weight]
        omega
  · rename_i hmain
    rw [← Option.some.inj h]
    simp only [State.weight, hmain, Main.weight, List.length_cons]
    omega
  · rename_i hmain
    rw [← Option.some.inj h]
    simp only [State.weight, hmain, Main.weight]
    omega
  · exact absurd h (Option.some_ne_none _).symm

/-- **Every step** lowers the bound. -/
theorem step_weight {l : Label} (h : step s l = some t) : t.weight < s.weight := by
  cases l with
  | cancel =>
    obtain ⟨hcancelled, h⟩ := Option.ite_none_left_eq_some.1 h
    rw [← Option.some.inj h]
    simp only [State.weight, eq_false_of_ne_true hcancelled, Bool.not_true, Bool.not_false,
      Bool.toNat_true, Bool.toNat_false]
    omega
  | task x o => exact taskStep_weight h
  | watcher c ctxDone => exact watcherStep_weight h
  | main => exact mainStep_weight h

/-- A goroutine that is under way can move, unless the channel is full. -/
theorem exists_taskStep (hx : (s.task x).isDone = false) (hroom : s.results = []) :
    ∃ t, s.taskStep x ⟨none, none, false⟩ = some t := by
  unfold State.taskStep
  cases htask : s.task x with
  | checking | dialing | reading | dropping => exact ⟨_, rfl⟩
  | failed left err => cases left <;> exact ⟨_, rfl⟩
  | reporting result => exact ⟨_, if_pos (by rw [hroom]; decide)⟩
  | done =>
    rw [htask] at hx
    exact Bool.noConfusion hx

/-- **No call is stuck**: until it has returned, a step of the call itself is possible. -/
theorem exists_step (hmain : ∀ result, s.main ≠ .returned result) :
    ∃ l t, l ≠ .cancel ∧ step s l = some t := by
  have hstep : (∃ t, s.mainStep = some t) ∨ ∃ x o t, s.taskStep x o = some t := by
    cases hm : s.main with
    | returned result => exact absurd hm (hmain result)
    | closing conns err =>
      refine .inl ?_
      unfold State.mainStep
      rw [hm]
      cases conns <;> exact ⟨_, rfl⟩
    | collecting =>
      cases hresults : s.results with
      | cons r results =>
        refine .inl ?_
        unfold State.mainStep
        rw [hm, hresults]
        exact ⟨_, rfl⟩
      | nil =>
        by_cases hdone : s.allDone
        · refine .inl ?_
          unfold State.mainStep
          rw [hm, hresults]
          show ∃ t, (if s.allDone then _ else none) = some t
          rw [if_pos hdone]
          cases s.firstErr <;> exact ⟨_, rfl⟩
        · simp only [State.allDone, not_forall] at hdone
          obtain ⟨x, -, hx⟩ := hdone
          exact .inr ⟨x, _, exists_taskStep (eq_false_of_ne_true hx) hresults⟩
  obtain ⟨t, ht⟩ | ⟨x, o, t, ht⟩ := hstep
  · exact ⟨.main, t, Label.noConfusion, ht⟩
  · exact ⟨.task x o, t, Label.noConfusion, ht⟩

/-! ### Every run -/

/-- What is claimed of a call. -/
structure AllOrNothing (requested : StreamId → Bool) (s : State) : Prop where
  /-- A connection has a socket for each requested stream, which has sent its handshake. -/
  filled : ∀ conn, s.main = .returned (.ok conn) → ∀ x, requested x = true →
    ∃ c, conn.slot x = some c ∧ (x, c) ∈ s.greeted
  /-- It has no other socket. -/
  only : ∀ conn, s.main = .returned (.ok conn) → ∀ x, requested x = false → conn.slot x = none
  /-- A socket that is not in a slot is closed. -/
  undone : ∀ conn, s.main = .returned (.ok conn) → ∀ c ∈ s.dialed,
    (∀ x, conn.slot x ≠ some c) → c ∈ s.shut
  /-- If there is an error, every socket is closed. -/
  nothing : ∀ err, s.main = .returned (.error err) → ∀ c ∈ s.dialed, c ∈ s.shut
  /-- A call that has not returned can go on. -/
  goesOn : (∀ result, s.main ≠ .returned result) → ∃ l t, l ≠ .cancel ∧ step s l = some t

/-- **All or nothing**: whatever the dials, the handshakes and the retries yield and whenever the
context is cancelled, the call returns a connection with exactly the requested sockets, or it
returns an error, and it closes every other socket. -/
theorem dialing_all_or_nothing (requested : StreamId → Bool) {ls : List Label}
    (h : exec step (init requested) ls = some s) :
    AllOrNothing requested s ∧ ls.length ≤ (init requested).weight := by
  have hs : Inv requested s := exec_invariant (fun _ _ _ hs h ↦ hs.step h) (inv_init requested) h
  refine ⟨?_, exec_length_le (fun _ _ _ h ↦ step_weight h) h⟩
  constructor
  case filled =>
    intro conn hmain x hx
    have hslot := hs.slot_isSome hmain x
    obtain ⟨rfl, -⟩ := hs.returned conn hmain
    obtain ⟨c, hc⟩ := Option.isSome_iff_exists.1 (hslot.trans hx)
    exact ⟨c, hc, hs.slots x c hc⟩
  case only =>
    intro conn hmain x hx
    obtain ⟨rfl, -⟩ := hs.returned conn hmain
    exact (hs.unrequested x hx).2.1
  case undone =>
    intro conn hmain c hc hslot
    obtain ⟨rfl, -⟩ := hs.returned conn hmain
    obtain hshut | ⟨x, hx⟩ := hs.accounted hmain hc
    · exact hshut
    · exact absurd hx (hslot x)
  case nothing =>
    intro err hmain c hc
    obtain hshut | ⟨x, hx⟩ := hs.accounted hmain hc
    · exact hshut
    · rw [hs.emptied (by rw [hmain]; rfl) x] at hx
      exact absurd hx.symm (Option.some_ne_none c)
  case goesOn => exact exists_step

/-- The speaker and the control stream are requested. -/
def speakerAndControl : StreamId → Bool
  | .speaker | .control => true
  | _ => false

/-- The speaker is greeted, and another byte comes from the control stream. -/
def wrongByteRun : List Label :=
  [.task .speaker ⟨none, none, false⟩, .task .speaker ⟨some 1, none, false⟩,
    .task .control ⟨some 2, none, false⟩, .task .speaker ⟨none, some 0xAB, false⟩,
    .task .control ⟨none, some 0, false⟩, .task .control ⟨none, none, false⟩,
    .task .control ⟨none, none, false⟩, .task .control ⟨none, none, false⟩,
    .task .speaker ⟨none, none, false⟩, .main, .main, .main, .main, .main]

/-- Both sockets are closed. -/
theorem dialing_all_or_nothing_wrongByte :
    ∃ s, exec step (init speakerAndControl) wrongByteRun = some s ∧
      s.main = .returned (.error (.unexpectedDummyByte .control 0)) ∧ s.dialed = [2, 1] ∧
      s.shut = [1, 2] ∧ AllOrNothing speakerAndControl s :=
  ⟨_, rfl, rfl, rfl, rfl, (@dialing_all_or_nothing _ speakerAndControl wrongByteRun rfl).1⟩

end AllRelay.Dialing
