import Mathlib.Data.Finset.Basic
import AllRelay.Hub.State
import AllRelay.Library.LabelledSystem

/-!
# The set of clients

A WebSocket client is handed to `Hub.Run` over an unbuffered channel, and `Run` puts it in the
`clients` map in a later step, under `mu`. From the hand-off on, the pumps of the client may tear it
down: the first call of `teardown` closes it and then, in a step of its own that needs `mu`, takes
it out of the map. `Run` tears clients down as well, those whose queue overflows in a broadcast and,
after `Stop`, all.

A client whose teardown is over before `Run` puts it in the map stays there, dead, until a broadcast
happens to find it closed (`dead_client_inserted`). This is the only way in which the map goes wrong
(`client_set`); in any case a client is closed at most once, and every client that was received is
closed when `Run` returns.
-/

open LabelledSystem

namespace AllRelay.ClientSet

/-! ### The state -/

/-- Where `Run` is. -/
inductive Run where
  /-- At the `select`. -/
  | selecting
  /-- With a client that was received and is not yet in the map. -/
  | registering (c : ClientId)
  /-- In the loop over the map, with `mu`: the clients to come, and the slow ones. -/
  | broadcasting (todo slowClients : List ClientId)
  /-- Tearing down the clients that are slow, or that came after `Stop`. -/
  | evicting (cs : List ClientId)
  /-- Tearing down the clients that were in the map, after `Stop`. -/
  | stopping (activeClients : List ClientId)
  /-- Returned. -/
  | returned
deriving DecidableEq, Repr

/-- The clients that `Run` puts in the map or tears down later. -/
def Run.hand : Run → List ClientId
  | .registering c => [c]
  | .broadcasting _ cs | .evicting cs | .stopping cs => cs
  | .selecting | .returned => []

/-- `Run` holds `mu` between two steps. -/
def Run.locked : Run → Bool
  | .broadcasting _ _ => true
  | _ => false

/-- `Run` has emptied the map. -/
def Run.emptied : Run → Bool
  | .stopping _ | .returned => true
  | _ => false

/-- `closeOnce`. -/
inductive Once where
  /-- No teardown. -/
  | fresh
  /-- In the first call of `teardown`, with `closed` closed. -/
  | closing
  /-- Past `removeClient`. -/
  | done
deriving DecidableEq, Repr

/-- The state of the hub and its clients. -/
structure State where
  /-- Where `Run` is. -/
  run : Run
  /-- The `stop` channel is closed. -/
  stop : Bool
  /-- `clients`. -/
  clients : Finset ClientId
  /-- The clients that `Run` has received. -/
  received : Finset ClientId
  /-- `closeOnce` of each client. -/
  once : ClientId → Once
  /-- How often the `closed` channel of each client was closed. -/
  closes : ClientId → ℕ

/-- Before the first client. -/
def init : State :=
  ⟨.selecting, false, ∅, ∅, fun _ ↦ .fresh, fun _ ↦ 0⟩

/-- The steps. The iteration order of a map is a choice. -/
inductive Label where
  /-- A client is handed over. -/
  | register (c : ClientId)
  /-- `Run` locks `mu` and puts the client in the map, or sees `stop`. -/
  | insert
  /-- A message is received, and `mu` is locked. -/
  | broadcast (order : List ClientId)
  /-- The next client of the loop: its queue is full or not, and `select` takes the closed channel
  or the send if both are ready. -/
  | visit (full takesClosed : Bool)
  /-- The next step of a teardown by `Run`. -/
  | advance
  /-- `Stop` is called. -/
  | stop
  /-- `Run` sees `stop` and empties the map. -/
  | collect (order : List ClientId)
  /-- A pump tears its client down. -/
  | teardown (c : ClientId)
  /-- `removeClient`, in a teardown. -/
  | remove (c : ClientId)
deriving DecidableEq, Repr

/-! ### The steps -/

namespace State

/-- Enter `closeOnce` and close the client. -/
def close (s : State) (c : ClientId) : State :=
  { s with
    once := Function.update s.once c .closing
    closes := Function.update s.closes c (s.closes c + 1) }

/-- `removeClient`, and the end of `closeOnce`. -/
def removeClient (s : State) (c : ClientId) : State :=
  { s with clients := s.clients.erase c, once := Function.update s.once c .done }

/-- `Run` calls `teardown`, which enters `closeOnce` or waits until it is over. -/
def teardown (s : State) (c : ClientId) (next : Run) : Option State :=
  match s.once c with
  | .fresh => some (s.close c)
  | .closing => none
  | .done => some { s with run := next }

end State

/-- A list of the clients in the map, in some order. -/
def lists (order : List ClientId) (clients : Finset ClientId) : Prop :=
  order.Nodup ∧ order.toFinset = clients

instance (order : List ClientId) (clients : Finset ClientId) : Decidable (lists order clients) :=
  inferInstanceAs (Decidable (_ ∧ _))

/-- One step. -/
def step (s : State) : Label → Option State
  | .register c =>
    if s.run = .selecting ∧ c ∉ s.received then
      some { s with run := .registering c, received := insert c s.received }
    else none
  | .insert =>
    match s.run with
    | .registering c =>
      if s.stop then some { s with run := .evicting [c] }
      else some { s with run := .selecting, clients := insert c s.clients }
    | _ => none
  | .broadcast order =>
    if s.run = .selecting ∧ lists order s.clients then
      some { s with run := .broadcasting order [] }
    else none
  | .visit full takesClosed =>
    match s.run with
    | .broadcasting (c :: todo) slow =>
      if s.once c ≠ .fresh ∧ (full ∨ takesClosed) then
        some { s with run := .broadcasting todo slow, clients := s.clients.erase c }
      else if full then
        some { s with run := .broadcasting todo (slow ++ [c]), clients := s.clients.erase c }
      else some { s with run := .broadcasting todo slow }
    | .broadcasting [] slow => some { s with run := .evicting slow }
    | _ => none
  | .advance =>
    match s.run with
    | .evicting (c :: cs) => s.teardown c (.evicting cs)
    | .evicting [] => some { s with run := .selecting }
    | .stopping (c :: cs) => s.teardown c (.stopping cs)
    | .stopping [] => some { s with run := .returned }
    | _ => none
  | .stop => some { s with stop := true }
  | .collect order =>
    if s.run = .selecting ∧ s.stop ∧ lists order s.clients then
      some { s with run := .stopping order, clients := ∅ }
    else none
  | .teardown c => if c ∈ s.received ∧ s.once c = .fresh then some (s.close c) else none
  | .remove c =>
    if s.once c = .closing ∧ s.run.locked = false then some (s.removeClient c) else none

/-! ### What is claimed -/

namespace State

/-- No party is in the middle of something. -/
def quiescent (s : State) : Prop :=
  s.run = .selecting ∧ ∀ c, s.once c ≠ .closing

/-- Nobody is in the middle of something with this client. -/
def settled (s : State) (c : ClientId) : Prop :=
  c ∉ s.run.hand ∧ s.once c ≠ .closing

/-- The map contains exactly the clients that registered and have not been torn down, as far as they
are settled. -/
def exact (s : State) : Prop :=
  ∀ c, s.settled c → (c ∈ s.clients ↔ c ∈ s.received ∧ s.closes c = 0)

end State

/-- A client is put in the map before its teardown is over. -/
def alive (s : State) (l : Label) : Prop :=
  l = .insert → ∀ c, s.run = .registering c → s.stop = false → s.once c ≠ .done

/-! ### The invariant -/

/-- What holds between any two steps. -/
structure Inv (s : State) : Prop where
  /-- The clients in the map were received. -/
  known : ∀ c ∈ s.clients, c ∈ s.received
  /-- So were those that `Run` deals with. -/
  hand : ∀ c ∈ s.run.hand, c ∈ s.received
  /-- And those in the loop. -/
  todo : ∀ todo slow, s.run = .broadcasting todo slow → ∀ c ∈ todo, c ∈ s.received
  /-- A client that was received is in the map, torn down or dealt with. -/
  accounted : ∀ c ∈ s.received, c ∈ s.clients ∨ s.once c ≠ .fresh ∨ c ∈ s.run.hand
  /-- A client is closed once, by its first teardown. -/
  counted : ∀ c, s.closes c = if s.once c = .fresh then 0 else 1
  /-- After `Stop` the map stays empty. -/
  emptied : s.run.emptied = true → s.clients = ∅

/-- No client in the map is past its teardown. -/
def NoneDead (s : State) : Prop :=
  ∀ c ∈ s.clients, s.once c ≠ .done

theorem inv_init : Inv init where
  known _ h := absurd h (Finset.notMem_empty _)
  hand _ h := absurd h List.not_mem_nil
  todo _ _ h := Run.noConfusion h
  accounted _ h := absurd h (Finset.notMem_empty _)
  counted _ := rfl
  emptied _ := rfl

variable {s t : State} {c : ClientId} {run : Run}

namespace Inv

/-- `Run` moves on; the clients it no longer deals with are in the map or torn down. -/
theorem move (hs : Inv s) (hhand : ∀ c ∈ run.hand, c ∈ s.received)
    (htodo : ∀ todo slow, run = .broadcasting todo slow → ∀ c ∈ todo, c ∈ s.received)
    (hleft : ∀ c ∈ s.run.hand, c ∈ s.clients ∨ s.once c ≠ .fresh ∨ c ∈ run.hand)
    (hemptied : run.emptied = true → s.clients = ∅) : Inv { s with run := run } where
  known := hs.known
  hand := hhand
  todo := htodo
  accounted c hc := by
    obtain h | h | h := hs.accounted c hc
    · exact .inl h
    · exact .inr (.inl h)
    · exact hleft c h
  counted := hs.counted
  emptied := hemptied

/-- A client is closed. -/
theorem close (hs : Inv s) (hc : s.once c = .fresh) : Inv (s.close c) where
  known := hs.known
  hand := hs.hand
  todo := hs.todo
  accounted d hd := by
    obtain rfl | hne := eq_or_ne d c
    · refine .inr (.inl ?_)
      show Function.update s.once d .closing d ≠ .fresh
      rw [Function.update_self]
      exact Once.noConfusion
    · show d ∈ s.clients ∨ Function.update s.once c .closing d ≠ .fresh ∨ d ∈ s.run.hand
      rw [Function.update_of_ne hne]
      exact hs.accounted d hd
  counted d := by
    show Function.update s.closes c (s.closes c + 1) d =
      if Function.update s.once c .closing d = .fresh then 0 else 1
    obtain rfl | hne := eq_or_ne d c
    · rw [Function.update_self, Function.update_self, hs.counted, if_pos hc]
      rfl
    · rw [Function.update_of_ne hne, Function.update_of_ne hne]
      exact hs.counted d
  emptied := hs.emptied

/-- A client that is closed is taken out of the map. -/
theorem removeClient (hs : Inv s) (hc : s.once c = .closing) : Inv (s.removeClient c) where
  known d hd := hs.known d (Finset.mem_of_mem_erase hd)
  hand := hs.hand
  todo := hs.todo
  accounted d hd := by
    show d ∈ s.clients.erase c ∨ Function.update s.once c .done d ≠ .fresh ∨ d ∈ s.run.hand
    obtain rfl | hne := eq_or_ne d c
    · rw [Function.update_self]
      exact .inr (.inl Once.noConfusion)
    · rw [Function.update_of_ne hne, Finset.mem_erase, and_iff_right hne]
      exact hs.accounted d hd
  counted d := by
    show s.closes d = if Function.update s.once c .done d = .fresh then 0 else 1
    obtain rfl | hne := eq_or_ne d c
    · rw [Function.update_self, hs.counted, hc]
      rfl
    · rw [Function.update_of_ne hne]
      exact hs.counted d
  emptied hemptied := by
    show s.clients.erase c = ∅
    rw [hs.emptied hemptied]
    rfl

/-- A client of the loop is taken out of the map: it is torn down, or dealt with later. -/
theorem drop (hs : Inv s) {todo slow slow' : List ClientId}
    (hrun : s.run = .broadcasting (c :: todo) slow) (hslow : ∀ d ∈ slow, d ∈ slow')
    (hnew : ∀ d ∈ slow', d ∈ slow ∨ d = c) (hc : s.once c ≠ .fresh ∨ c ∈ slow') :
    Inv { s with run := .broadcasting todo slow', clients := s.clients.erase c } where
  known d hd := hs.known d (Finset.mem_of_mem_erase hd)
  hand d hd := by
    obtain h | rfl := hnew d hd
    · exact hs.hand d (by rw [hrun]; exact h)
    · exact hs.todo _ _ hrun d List.mem_cons_self
  todo todo' slow'' heq d hd := by
    obtain ⟨rfl, -⟩ := Run.broadcasting.inj heq
    exact hs.todo _ _ hrun d (List.mem_cons_of_mem c hd)
  accounted d hd := by
    show d ∈ s.clients.erase c ∨ s.once d ≠ .fresh ∨ d ∈ slow'
    obtain rfl | hne := eq_or_ne d c
    · exact .inr hc
    · rw [Finset.mem_erase, and_iff_right hne]
      obtain h | h | h := hs.accounted d hd
      · exact .inl h
      · exact .inr (.inl h)
      · rw [hrun] at h
        exact .inr (.inr (hslow d h))
  counted := hs.counted
  emptied h := Bool.noConfusion h

/-- A client is put in the map. -/
theorem insert (hs : Inv s) (hrun : s.run = .registering c) :
    Inv { s with run := .selecting, clients := insert c s.clients } where
  known d hd := by
    obtain rfl | h := Finset.mem_insert.1 hd
    · exact hs.hand d (by rw [hrun]; exact List.mem_cons_self)
    · exact hs.known d h
  hand _ h := absurd h List.not_mem_nil
  todo _ _ h := Run.noConfusion h
  accounted d hd := by
    obtain h | h | h := hs.accounted d hd
    · exact .inl (Finset.mem_insert_of_mem h)
    · exact .inr (.inl h)
    · rw [hrun] at h
      rw [List.mem_singleton.1 h]
      exact .inl (Finset.mem_insert_self ..)
  counted := hs.counted
  emptied h := Bool.noConfusion h

/-- A client is received. -/
theorem register (hs : Inv s) (hrun : s.run = .selecting) :
    Inv { s with run := .registering c, received := Insert.insert c s.received } where
  known d hd := Finset.mem_insert_of_mem (hs.known d hd)
  hand d hd := by
    rw [List.mem_singleton.1 hd]
    exact Finset.mem_insert_self ..
  todo _ _ h := Run.noConfusion h
  accounted d hd := by
    obtain rfl | hd := Finset.mem_insert.1 hd
    · exact .inr (.inr List.mem_cons_self)
    · obtain h | h | h := hs.accounted d hd
      · exact .inl h
      · exact .inr (.inl h)
      · rw [hrun] at h
        exact absurd h List.not_mem_nil
  counted := hs.counted
  emptied h := Bool.noConfusion h

/-- The map is emptied. -/
theorem collect (hs : Inv s) (hrun : s.run = .selecting) {order : List ClientId}
    (horder : lists order s.clients) :
    Inv { s with run := .stopping order, clients := ∅ } where
  known _ h := absurd h (Finset.notMem_empty _)
  hand d hd := hs.known d (horder.2 ▸ List.mem_toFinset.2 hd)
  todo _ _ h := Run.noConfusion h
  accounted d hd := by
    obtain h | h | h := hs.accounted d hd
    · rw [← horder.2, List.mem_toFinset] at h
      exact .inr (.inr h)
    · exact .inr (.inl h)
    · rw [hrun] at h
      exact absurd h List.not_mem_nil
  counted := hs.counted
  emptied _ := rfl

/-- `Run` tears a client down. -/
theorem teardown (hs : Inv s) {cs : List ClientId} (hrun : s.run.hand = c :: cs)
    (hnext : run.hand = cs) (hlocked : run.locked = false)
    (hemptied : run.emptied = true → s.run.emptied = true) (h : s.teardown c run = some t) :
    Inv t := by
  unfold State.teardown at h
  split at h
  · rename_i hfresh
    exact Option.some.inj h ▸ hs.close hfresh
  · exact absurd h (Option.some_ne_none _).symm
  · rename_i hdone
    refine Option.some.inj h ▸ hs.move (fun d hd ↦ ?_) (fun todo slow hbroadcast ↦ ?_)
      (fun d hd ↦ ?_) fun h ↦ hs.emptied (hemptied h)
    · rw [hnext] at hd
      exact hs.hand d (by rw [hrun]; exact List.mem_cons_of_mem c hd)
    · rw [hbroadcast] at hlocked
      exact Bool.noConfusion hlocked
    · rw [hrun] at hd
      obtain rfl | hd := List.mem_cons.1 hd
      · exact .inr (.inl (by rw [hdone]; exact Once.noConfusion))
      · exact .inr (.inr (by rw [hnext]; exact hd))

/-- The next client of the loop. -/
theorem visit (hs : Inv s) {full takesClosed : Bool}
    (h : ClientSet.step s (.visit full takesClosed) = some t) : Inv t := by
  unfold ClientSet.step at h
  match hrun : s.run with
  | .broadcasting (c :: todo) slow =>
    simp only [hrun] at h
    have hhand : ∀ d ∈ slow, d ∈ s.received := fun d hd ↦ hs.hand d (by rw [hrun]; exact hd)
    split at h
    · rename_i hclosed
      exact Option.some.inj h ▸ hs.drop hrun (fun _ hd ↦ hd) (fun _ hd ↦ .inl hd) (.inl hclosed.1)
    · split at h
      · refine Option.some.inj h ▸ hs.drop hrun (fun d hd ↦ List.mem_append_left _ hd)
          (fun d hd ↦ ?_) (.inr (List.mem_append_right _ List.mem_cons_self))
        obtain hd | hd := List.mem_append.1 hd
        · exact .inl hd
        · exact .inr (List.mem_singleton.1 hd)
      · refine Option.some.inj h ▸ hs.move hhand (fun todo' slow' heq d hd ↦ ?_)
          (fun d hd ↦ ?_) fun h ↦ Bool.noConfusion h
        · obtain ⟨rfl, -⟩ := Run.broadcasting.inj heq
          exact hs.todo _ _ hrun d (List.mem_cons_of_mem c hd)
        · rw [hrun] at hd
          exact .inr (.inr hd)
  | .broadcasting [] slow =>
    simp only [hrun] at h
    have hhand : ∀ d ∈ slow, d ∈ s.received := fun d hd ↦ hs.hand d (by rw [hrun]; exact hd)
    refine Option.some.inj h ▸ hs.move hhand (fun _ _ h ↦ Run.noConfusion h) (fun d hd ↦ ?_)
      fun h ↦ Bool.noConfusion h
    rw [hrun] at hd
    exact .inr (.inr hd)
  | .selecting | .registering _ | .evicting _ | .stopping _ | .returned =>
    simp only [hrun] at h
    exact absurd h (Option.some_ne_none _).symm

/-- A step of a teardown by `Run`. -/
theorem advance (hs : Inv s) (h : ClientSet.step s .advance = some t) : Inv t := by
  unfold ClientSet.step at h
  match hrun : s.run with
  | .evicting (c :: cs) =>
    simp only [hrun] at h
    exact hs.teardown (by rw [hrun]; rfl) rfl rfl (fun h ↦ Bool.noConfusion h) h
  | .stopping (c :: cs) =>
    simp only [hrun] at h
    exact hs.teardown (by rw [hrun]; rfl) rfl rfl (fun _ ↦ by rw [hrun]; rfl) h
  | .evicting [] =>
    simp only [hrun] at h
    refine Option.some.inj h ▸ hs.move (fun _ h ↦ absurd h List.not_mem_nil)
      (fun _ _ h ↦ Run.noConfusion h) (fun d hd ↦ ?_) fun h ↦ Bool.noConfusion h
    rw [hrun] at hd
    exact absurd hd List.not_mem_nil
  | .stopping [] =>
    simp only [hrun] at h
    refine Option.some.inj h ▸ hs.move (fun _ h ↦ absurd h List.not_mem_nil)
      (fun _ _ h ↦ Run.noConfusion h) (fun d hd ↦ ?_) fun _ ↦ hs.emptied (by rw [hrun]; rfl)
    rw [hrun] at hd
    exact absurd hd List.not_mem_nil
  | .selecting | .registering _ | .broadcasting _ _ | .returned =>
    simp only [hrun] at h
    exact absurd h (Option.some_ne_none _).symm

/-- Every step keeps it. -/
theorem step (hs : Inv s) {l : Label} (h : ClientSet.step s l = some t) : Inv t := by
  match l with
  | .register c =>
    obtain ⟨⟨hrun, -⟩, h⟩ := Option.ite_none_right_eq_some.1 h
    exact Option.some.inj h ▸ hs.register hrun
  | .insert =>
    unfold ClientSet.step at h
    match hrun : s.run with
    | .registering c =>
      simp only [hrun] at h
      split at h
      · have hhand : ∀ d ∈ [c], d ∈ s.received := fun d hd ↦ hs.hand d (by rw [hrun]; exact hd)
        refine Option.some.inj h ▸ hs.move hhand (fun _ _ h ↦ Run.noConfusion h) (fun d hd ↦ ?_)
          fun h ↦ Bool.noConfusion h
        rw [hrun] at hd
        exact .inr (.inr hd)
      · exact Option.some.inj h ▸ hs.insert hrun
    | .selecting | .broadcasting _ _ | .evicting _ | .stopping _ | .returned =>
      simp only [hrun] at h
      exact absurd h (Option.some_ne_none _).symm
  | .broadcast order =>
    obtain ⟨⟨hrun, horder⟩, h⟩ := Option.ite_none_right_eq_some.1 h
    refine Option.some.inj h ▸ hs.move (fun _ h ↦ absurd h List.not_mem_nil)
      (fun todo slow heq d hd ↦ ?_) (fun d hd ↦ ?_) fun h ↦ Bool.noConfusion h
    · obtain ⟨rfl, -⟩ := Run.broadcasting.inj heq
      exact hs.known d (horder.2 ▸ List.mem_toFinset.2 hd)
    · rw [hrun] at hd
      exact absurd hd List.not_mem_nil
  | .visit _ _ => exact hs.visit h
  | .advance => exact hs.advance h
  | .stop =>
    exact Option.some.inj h ▸ ⟨hs.known, hs.hand, hs.todo, hs.accounted, hs.counted, hs.emptied⟩
  | .collect order =>
    obtain ⟨⟨hrun, -, horder⟩, h⟩ := Option.ite_none_right_eq_some.1 h
    exact Option.some.inj h ▸ hs.collect hrun horder
  | .teardown c =>
    obtain ⟨⟨-, hfresh⟩, h⟩ := Option.ite_none_right_eq_some.1 h
    exact Option.some.inj h ▸ hs.close hfresh
  | .remove c =>
    obtain ⟨⟨hclosing, -⟩, h⟩ := Option.ite_none_right_eq_some.1 h
    exact Option.some.inj h ▸ hs.removeClient hclosing

/-- Every run keeps it. -/
theorem exec {ls : List Label} (h : exec ClientSet.step init ls = some s) : Inv s :=
  exec_invariant (fun _ _ _ hs h ↦ hs.step h) inv_init h

/-- The map is exact when no client in it is past its teardown. -/
theorem exact (hs : Inv s) (hdead : NoneDead s) : s.exact := by
  rintro c ⟨hhand, hclosing⟩
  have hfresh : s.closes c = 0 ↔ s.once c = .fresh := by
    rw [hs.counted]
    exact ite_eq_left_iff.trans ⟨fun h ↦ by_contra fun hne ↦ Nat.one_ne_zero (h hne),
      fun h hne ↦ absurd h hne⟩
  rw [hfresh]
  constructor
  · intro hc
    refine ⟨hs.known c hc, ?_⟩
    match honce : s.once c with
    | .fresh => rfl
    | .closing => exact absurd honce hclosing
    | .done => exact absurd honce (hdead c hc)
  · rintro ⟨hc, honce⟩
    obtain h | h | h := hs.accounted c hc
    · exact h
    · exact absurd honce h
    · exact absurd h hhand

/-- A client is closed at most once. -/
theorem closes_le_one (hs : Inv s) (c : ClientId) : s.closes c ≤ 1 := by
  rw [hs.counted]
  split
  · exact Nat.zero_le 1
  · exact le_refl 1

/-- When `Run` has returned every client that was received is closed. -/
theorem closed_of_returned (hs : Inv s) (hrun : s.run = .returned) {c : ClientId}
    (hc : c ∈ s.received) : s.closes c = 1 := by
  rw [hs.counted]
  refine if_neg fun hfresh ↦ ?_
  obtain h | h | h := hs.accounted c hc
  · rw [hs.emptied (by rw [hrun]; rfl)] at h
    exact Finset.notMem_empty c h
  · exact h hfresh
  · rw [hrun] at h
    exact List.not_mem_nil h

end Inv

/-! ### Every run -/

namespace NoneDead

theorem mono (hs : NoneDead s) (hclients : t.clients ⊆ s.clients) (honce : t.once = s.once) :
    NoneDead t := by
  intro c hc
  rw [honce]
  exact hs c (hclients hc)

theorem close (hs : NoneDead s) (c : ClientId) : NoneDead (s.close c) := by
  intro d hd
  show Function.update s.once c .closing d ≠ .done
  obtain rfl | hne := eq_or_ne d c
  · rw [Function.update_self]
    exact Once.noConfusion
  · rw [Function.update_of_ne hne]
    exact hs d hd

theorem removeClient (hs : NoneDead s) (c : ClientId) : NoneDead (s.removeClient c) := by
  intro d hd
  obtain ⟨hne, hd⟩ := Finset.mem_erase.1 hd
  show Function.update s.once c .done d ≠ .done
  rw [Function.update_of_ne hne]
  exact hs d hd

theorem teardown (hs : NoneDead s) (h : s.teardown c run = some t) : NoneDead t := by
  unfold State.teardown at h
  split at h
  · exact Option.some.inj h ▸ hs.close c
  · exact absurd h (Option.some_ne_none _).symm
  · exact Option.some.inj h ▸ hs

/-- A step keeps the dead out of the map if no dead client is put in it. -/
theorem step (hs : NoneDead s) {l : Label} (hl : alive s l) (h : ClientSet.step s l = some t) :
    NoneDead t := by
  match l with
  | .insert =>
    unfold ClientSet.step at h
    match hrun : s.run with
    | .registering c =>
      simp only [hrun] at h
      split at h
      · exact Option.some.inj h ▸ hs
      · rename_i hstop
        rw [← Option.some.inj h]
        intro d hd
        obtain rfl | hd := Finset.mem_insert.1 hd
        · exact hl rfl d hrun (Bool.eq_false_of_not_eq_true hstop)
        · exact hs d hd
    | .selecting | .broadcasting _ _ | .evicting _ | .stopping _ | .returned =>
      simp only [hrun] at h
      exact absurd h (Option.some_ne_none _).symm
  | .visit _ _ =>
    simp only [ClientSet.step] at h
    split at h
    · rename_i c todo slow _
      have herase : s.clients.erase c ⊆ s.clients := Finset.erase_subset ..
      split at h
      · exact Option.some.inj h ▸ hs.mono herase rfl
      · split at h
        · exact Option.some.inj h ▸ hs.mono herase rfl
        · exact Option.some.inj h ▸ hs
    · exact Option.some.inj h ▸ hs
    · exact absurd h (Option.some_ne_none _).symm
  | .advance =>
    simp only [ClientSet.step] at h
    split at h
    · exact hs.teardown h
    · exact Option.some.inj h ▸ hs
    · exact hs.teardown h
    · exact Option.some.inj h ▸ hs
    · exact absurd h (Option.some_ne_none _).symm
  | .stop => exact Option.some.inj h ▸ hs
  | .collect _ =>
    obtain ⟨-, h⟩ := Option.ite_none_right_eq_some.1 h
    exact Option.some.inj h ▸ fun _ hc ↦ absurd hc (Finset.notMem_empty _)
  | .register _ | .broadcast _ =>
    obtain ⟨-, h⟩ := Option.ite_none_right_eq_some.1 h
    exact Option.some.inj h ▸ hs
  | .teardown c =>
    obtain ⟨-, h⟩ := Option.ite_none_right_eq_some.1 h
    exact Option.some.inj h ▸ hs.close c
  | .remove c =>
    obtain ⟨-, h⟩ := Option.ite_none_right_eq_some.1 h
    exact Option.some.inj h ▸ hs.removeClient c

end NoneDead

/-- A dead client that is put in the map makes it wrong. -/
theorem not_exact_of_not_alive (hs : Inv s) {l : Label} (hl : ¬alive s l) :
    ∃ t, step s l = some t ∧ ¬t.exact := by
  simp only [alive, Classical.not_imp, not_forall, ne_eq, not_not] at hl
  obtain ⟨rfl, c, hrun, hstop, hdone⟩ := hl
  refine ⟨{ s with run := .selecting, clients := insert c s.clients }, ?_, fun hexact ↦ ?_⟩
  · simp only [step, hrun, hstop]
    rfl
  · have hsettled : State.settled { s with run := .selecting, clients := insert c s.clients } c :=
      ⟨List.not_mem_nil, fun hclosing ↦ Once.noConfusion (hdone.symm.trans hclosing)⟩
    have hclosed : s.closes c = 0 := ((hexact c hsettled).1 (Finset.mem_insert_self ..)).2
    rw [hs.counted, if_neg (by rw [hdone]; exact Once.noConfusion)] at hclosed
    exact Nat.one_ne_zero hclosed

theorem settled_of_quiescent (h : s.quiescent) (c : ClientId) : s.settled c := by
  refine ⟨?_, h.2 c⟩
  rw [h.1]
  exact List.not_mem_nil

/-- **The set of clients**: in every schedule the map is exact, in particular in its quiescent
states, exactly when every client is put in the map before its teardown is over. In any case a
client is closed at most once, and when `Run` has returned every client that it received is
closed. -/
theorem client_set (ls : List Label) :
    ((∀ ms t, ms <+: ls → exec step init ms = some t → t.exact) ↔ Along step alive init ls) ∧
      ∀ s, exec step init ls = some s →
        (s.exact → s.quiescent → ∀ c, c ∈ s.clients ↔ c ∈ s.received ∧ s.closes c = 0) ∧
        (∀ c, s.closes c ≤ 1) ∧ (s.run = .returned → ∀ c ∈ s.received, s.closes c = 1) := by
  have hinit : Inv init ∧ NoneDead init :=
    ⟨inv_init, fun _ hc ↦ absurd hc (Finset.notMem_empty _)⟩
  constructor
  · exact throughout_iff_along (I := fun s ↦ Inv s ∧ NoneDead s) (fun _ hs ↦ hs.1.exact hs.2)
      (fun _ _ _ hl hs h ↦ ⟨hs.1.step h, hs.2.step hl h⟩)
      (fun _ _ hs hl ↦ not_exact_of_not_alive hs.1 hl) hinit
  · intro s h
    have hs := Inv.exec h
    exact ⟨fun hexact hquiet c ↦ hexact c (settled_of_quiescent hquiet c), hs.closes_le_one,
      fun hrun _ hc ↦ hs.closed_of_returned hrun hc⟩

/-- A client dies between its hand-off and its insertion. -/
def resurrection : List Label :=
  [.register 0, .teardown 0, .remove 0, .insert]

/-- **A dead client is put in the map**: the hub is quiescent, and its map contains a client that
was torn down. -/
theorem dead_client_inserted :
    ¬∀ ls s, exec step init ls = some s → s.quiescent → s.stop = false →
      ∀ c, c ∈ s.clients ↔ c ∈ s.received ∧ s.closes c = 0 := by
  intro hall
  have hquiet : ∀ c, Function.update (Function.update (fun _ ↦ Once.fresh) 0 .closing) 0 .done c ≠
      Once.closing := by
    intro c
    obtain rfl | hne := eq_or_ne c 0
    · rw [Function.update_self]
      exact Once.noConfusion
    · rw [Function.update_of_ne hne, Function.update_of_ne hne]
      exact Once.noConfusion
  have hexact := hall resurrection _ rfl ⟨rfl, hquiet⟩ rfl 0
  exact absurd (hexact.1 (by decide)).2 (by decide)

end AllRelay.ClientSet
