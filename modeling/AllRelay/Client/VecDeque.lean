import AllRelay.Library.Lockstep
import AllRelay.Library.RingBuffer

/-!
# The queue of the desktop client

The threads of the desktop client hand each other their messages, packets and frames through
`SC_VECDEQUE`, a ring buffer that grows. It is a set of macros over four fields; `VecDeque` has the
fields, and its operations are the macros with their arithmetic on `size_t`. What an allocation
yields is an argument. An operation fails if an assertion fails, or if it would use a cell outside
of the array or one that was never written.

`Growing` says what it is for: a list with room for so many items. The two answer every sequence of
calls alike.
-/

namespace AllRelay.Client

/-- What the macros read of the platform and of the type of the items. -/
structure Layout where
  /-- `SIZE_MAX`. -/
  sizeMax : ℕ
  /-- `sizeof(*(pv)->data)`. -/
  itemSize : ℕ
  /-- A type has a size. -/
  itemSize_pos : 0 < itemSize

/-- The fields of `SC_VECDEQUE`. -/
structure VecDeque (α : Type*) where
  /-- `cap`. -/
  cap : ℕ
  /-- `origin`. -/
  origin : ℕ
  /-- `size`. -/
  size : ℕ
  /-- The cells at `data`; a cell that was never written has nothing in it. -/
  data : List (Option α)
deriving DecidableEq, Repr

/-- A call of one of the macros. -/
inductive QueueCall (α : Type*) where
  /-- `sc_vecdeque_push`; `memory` says whether an allocation succeeds. -/
  | push (item : α) (memory : Bool)
  /-- `sc_vecdeque_push_noresize`. -/
  | pushNoresize (item : α)
  /-- `sc_vecdeque_pop`. -/
  | pop
  /-- `sc_vecdeque_reserve`. -/
  | reserve (mincap : ℕ) (memory : Bool)
  /-- `sc_vecdeque_clear`. -/
  | clear
  /-- `sc_vecdeque_size`. -/
  | size
deriving DecidableEq, Repr

/-- What a call evaluates to. -/
inductive QueueAnswer (α : Type*) where
  /-- No value. -/
  | done
  /-- Whether it succeeded. -/
  | ok (success : Bool)
  /-- An item. -/
  | item (a : α)
  /-- A number of items. -/
  | number (n : ℕ)
deriving DecidableEq, Repr

namespace Layout

variable (L : Layout)

/-- An expression of type `size_t`. -/
def sizeT (n : ℕ) : ℕ := n % (L.sizeMax + 1)

/-- `sc_vecdeque_max_cap_`. -/
def maxCap : ℕ := L.sizeMax / 2 / L.itemSize

/-- `sc_vecdeque_growsize_`. -/
def growsize (n : ℕ) : ℕ := L.sizeT (n + n / 2)

theorem maxCap_le : L.maxCap ≤ L.sizeMax / 2 :=
  Nat.div_le_self _ _

theorem sizeT_of_le {L : Layout} {n : ℕ} (h : n ≤ L.sizeMax) : L.sizeT n = n :=
  Nat.mod_eq_of_lt (Nat.lt_succ_of_le h)

end Layout

/-- `SC_VECDEQUE_MINCAP_`. -/
def mincap : ℕ := 10

/-- `CLAMP`. -/
def clampSize (v x y : ℕ) : ℕ := min (max v x) y

namespace VecDeque

variable {α : Type*} (L : Layout)

/-- `SC_VECDEQUE_INITIALIZER`. -/
def init : VecDeque α := ⟨0, 0, 0, []⟩

/-- `sc_vecdeque_reallocdata_`, with the change of `data` by `sc_vecdeque_realloc_`. -/
def realloc (v : VecDeque α) (newcap : ℕ) (memory : Bool) : Option (VecDeque α × Bool) :=
  if newcap ≤ v.cap then none
  else if L.sizeT (v.origin + v.size) ≤ v.cap then
    if memory then
      some ({ v with
        cap := newcap
        data := v.data ++ List.replicate (newcap - v.cap) none }, true)
    else some (v, false)
  else if v.size = 0 then none
  else if !memory then some (v, false)
  else
    let rightLen := min v.size (v.cap - v.origin)
    if rightLen = 0 then none
    else
      some ({ v with
        cap := newcap
        origin := 0
        data := (v.data.drop v.origin).take rightLen ++ v.data.take (v.size - rightLen) ++
          List.replicate (newcap - v.size) none }, true)

/-- `sc_vecdeque_reserve`. -/
def reserve (v : VecDeque α) (n : ℕ) (memory : Bool) : Option (VecDeque α × Bool) :=
  if L.maxCap < n then none
  else if max n mincap ≤ v.cap then some (v, true)
  else if max n mincap ≤ L.maxCap then
    v.realloc L (clampSize (L.growsize v.cap) (max n mincap) L.maxCap) memory
  else some (v, false)

/-- `sc_vecdeque_grow_`. -/
def grow (v : VecDeque α) (memory : Bool) : Option (VecDeque α × Bool) :=
  if v.cap < L.maxCap then v.realloc L (clampSize (L.growsize v.cap) mincap L.maxCap) memory
  else some (v, false)

/-- `sc_vecdeque_grow_if_needed_`. -/
def growIfNeeded (v : VecDeque α) (memory : Bool) : Option (VecDeque α × Bool) :=
  if v.size ≠ v.cap then some (v, true) else v.grow L memory

/-- `sc_vecdeque_push_noresize`. -/
def pushNoresize (v : VecDeque α) (item : α) : Option (VecDeque α) :=
  if v.size = v.cap then none
  else
    let size := L.sizeT (v.size + 1)
    let pos := L.sizeT (v.origin + size - 1) % v.cap
    if pos < v.data.length then some { v with size := size, data := v.data.set pos (some item) }
    else none

/-- `sc_vecdeque_push`. -/
def push (v : VecDeque α) (item : α) (memory : Bool) : Option (VecDeque α × Bool) := do
  let (v, ok) ← v.growIfNeeded L memory
  if ok then return (← v.pushNoresize L item, true)
  else return (v, false)

/-- `sc_vecdeque_pop`. -/
def pop (v : VecDeque α) : Option (VecDeque α × α) := do
  if v.size = 0 then none
  else
    let item ← (v.data[v.origin]?).join
    return ({ v with origin := L.sizeT (v.origin + 1) % v.cap, size := v.size - 1 }, item)

/-- A call. -/
def call (v : VecDeque α) : QueueCall α → Option (VecDeque α × QueueAnswer α)
  | .push item memory => (v.push L item memory).map fun x ↦ (x.1, .ok x.2)
  | .pushNoresize item => (v.pushNoresize L item).map fun v ↦ (v, .done)
  | .pop => (v.pop L).map fun x ↦ (x.1, .item x.2)
  | .reserve n memory => (v.reserve L n memory).map fun x ↦ (x.1, .ok x.2)
  | .clear => some (init, .done)
  | .size => some (v, .number v.size)

end VecDeque

/-! ### What it is for -/

/-- A list with room for so many items. -/
structure Growing (α : Type*) where
  /-- The items, oldest first. -/
  items : List α
  /-- How many there is room for. -/
  room : ℕ
deriving DecidableEq, Repr

namespace Growing

variable {α : Type*} (maxRoom : ℕ)

/-- The room after a growth to at least `n` items. -/
def grown (room n : ℕ) : ℕ := min (max (room + room / 2) n) maxRoom

/-- A call. It fails without room for the item, with no item to take, and for a room that no growth
reaches. -/
def call (q : Growing α) : QueueCall α → Option (Growing α × QueueAnswer α)
  | .push item memory =>
    if q.items.length < q.room then some ({ q with items := q.items ++ [item] }, .ok true)
    else if q.room < maxRoom ∧ memory then
      some (⟨q.items ++ [item], grown maxRoom q.room 10⟩, .ok true)
    else some (q, .ok false)
  | .pushNoresize item =>
    if q.items.length < q.room then some ({ q with items := q.items ++ [item] }, .done) else none
  | .pop =>
    match q.items with
    | [] => none
    | item :: items => some ({ q with items := items }, .item item)
  | .reserve n memory =>
    if maxRoom < n then none
    else if max n 10 ≤ q.room then some (q, .ok true)
    else if max n 10 ≤ maxRoom ∧ memory then
      some ({ q with room := grown maxRoom q.room (max n 10) }, .ok true)
    else some (q, .ok false)
  | .clear => some (⟨[], 0⟩, .done)
  | .size => some (q, .number q.items.length)

variable {maxRoom} {q q' : Growing α}

/-- A reservation that succeeds makes the room and keeps the items. -/
theorem of_call_reserve {n : ℕ} {memory : Bool}
    (h : q.call maxRoom (.reserve n memory) = some (q', .ok true)) :
    q'.items = q.items ∧ n ≤ q'.room := by
  rw [call] at h
  obtain ⟨hn, h⟩ := Option.ite_none_left_eq_some.1 h
  split_ifs at h with hroom hgrow
  · obtain ⟨rfl, -⟩ := Prod.mk.inj (Option.some.inj h)
    exact ⟨rfl, (le_max_left n 10).trans hroom⟩
  · obtain ⟨rfl, -⟩ := Prod.mk.inj (Option.some.inj h)
    refine ⟨rfl, ?_⟩
    show n ≤ min (max _ (max n 10)) maxRoom
    omega
  · simp at h

/-- A push has an answer. It is refused only if there is no room left. -/
theorem call_push (maxRoom : ℕ) (q : Growing α) (item : α) (memory : Bool) :
    ∃ q' pushed, q.call maxRoom (.push item memory) = some (q', .ok pushed) ∧
      q'.items = (if pushed then q.items ++ [item] else q.items) ∧ q.room ≤ q'.room ∧
      (pushed = false → q.room ≤ q.items.length) := by
  rw [call]
  split_ifs with hroom hgrow
  · exact ⟨_, true, rfl, rfl, le_rfl, fun h ↦ absurd h (by decide)⟩
  · refine ⟨_, true, rfl, rfl, ?_, fun h ↦ absurd h (by decide)⟩
    have := hgrow.1
    show q.room ≤ min (max (q.room + q.room / 2) 10) maxRoom
    omega
  · exact ⟨q, false, rfl, rfl, le_rfl, fun _ ↦ not_lt.1 hroom⟩

end Growing

namespace VecDeque

variable {α : Type*} {L : Layout} {v : VecDeque α} {q : Growing α}

/-- The ring buffer has the items of the list. -/
structure Represents (L : Layout) (v : VecDeque α) (q : Growing α) : Prop where
  /-- The capacity is the room. -/
  cap : v.cap = q.room
  /-- No `size_t` overflows. -/
  cap_le : v.cap ≤ L.maxCap
  /-- The array has its cells. -/
  data : v.data.length = v.cap
  /-- The origin is one of them, if there are any. -/
  origin : v.origin < max v.cap 1
  /-- The size. -/
  size : v.size = q.items.length
  /-- The items fit. -/
  size_le : v.size ≤ v.cap
  /-- The items have been written. -/
  items : RingBuffer.items v.data v.origin v.size = q.items.map some

theorem represents_init : Represents L (init : VecDeque α) ⟨[], 0⟩ where
  cap := rfl
  cap_le := Nat.zero_le _
  data := rfl
  origin := Nat.one_pos
  size := rfl
  size_le := le_rfl
  items := rfl

theorem Represents.two_cap_le (h : Represents L v q) : 2 * v.cap ≤ L.sizeMax := by
  have hcap := h.cap_le.trans L.maxCap_le
  omega

/-! ### Growth -/

theorem Represents.sizeT_add (h : Represents L v q) :
    L.sizeT (v.origin + v.size) = v.origin + v.size := by
  have htwo := h.two_cap_le
  have horigin := h.origin
  have hsize := h.size_le
  exact Layout.sizeT_of_le (by omega)

/-- Without memory nothing changes. -/
theorem Represents.realloc_of_not_memory (h : Represents L v q) {newcap : ℕ}
    (hnew : v.cap < newcap) : v.realloc L newcap false = some (v, false) := by
  have horigin := h.origin
  rw [realloc, if_neg (by omega), h.sizeT_add]
  obtain hplace | haround := le_or_gt (v.origin + v.size) v.cap
  · rw [if_pos hplace, if_neg Bool.false_ne_true]
  · rw [if_neg (by omega), if_neg (by omega), if_pos Bool.not_false]

/-- With memory the items stay, in place or copied to the front. -/
theorem Represents.realloc (h : Represents L v q) {newcap : ℕ} (hnew : v.cap < newcap)
    (hmax : newcap ≤ L.maxCap) :
    ∃ v', v.realloc L newcap true = some (v', true) ∧
      Represents L v' { q with room := newcap } := by
  have htwo := h.two_cap_le
  have horigin := h.origin
  have hsize := h.size_le
  have hdata := h.data
  rw [VecDeque.realloc, if_neg (by omega), h.sizeT_add]
  obtain hplace | haround := le_or_gt (v.origin + v.size) v.cap
  · rw [if_pos hplace, if_pos rfl]
    refine ⟨_, rfl, rfl, hmax, ?_, ?_, h.size, ?_, ?_⟩
    · show (v.data ++ _).length = newcap
      rw [List.length_append, List.length_replicate]
      omega
    · show v.origin < max newcap 1
      omega
    · show v.size ≤ newcap
      omega
    · show RingBuffer.items (v.data ++ _) v.origin v.size = _
      rw [RingBuffer.items_append _ (by omega), h.items]
  · have hright : min v.size (v.cap - v.origin) = v.cap - v.origin := by omega
    rw [if_neg (by omega), if_neg (by omega), if_neg (by decide)]
    simp only [hright]
    -- the two copies are the items, which now lie at the front
    have hdrop : (v.data.drop v.origin).length = v.cap - v.origin := by
      rw [List.length_drop, hdata]
    have hcopy : (v.data.drop v.origin).take (v.cap - v.origin) ++
        v.data.take (v.size - (v.cap - v.origin)) = q.items.map some := by
      rw [← h.items, RingBuffer.items_eq_append (by omega) (by omega), hdata,
        List.take_of_length_le hdrop.le, List.take_of_length_le (hdrop.trans_le (by omega))]
    have hlength : (q.items.map some).length = v.size := by
      rw [List.length_map, h.size]
    rw [if_neg (show ¬v.cap - v.origin = 0 by omega)]
    refine ⟨_, rfl, rfl, hmax, ?_, ?_, h.size, ?_, ?_⟩
    · show (_ ++ _ ++ _ : List _).length = newcap
      rw [hcopy, List.length_append, List.length_replicate, hlength]
      omega
    · show 0 < max newcap 1
      omega
    · show v.size ≤ newcap
      omega
    · show RingBuffer.items (_ ++ _ ++ _) 0 v.size = _
      rw [hcopy, RingBuffer.items_start_zero, List.take_append_of_le_length hlength.ge,
        List.take_of_length_le hlength.le]

theorem Represents.growsize (h : Represents L v q) :
    L.growsize v.cap = q.room + q.room / 2 := by
  have htwo := h.two_cap_le
  rw [Layout.growsize, Layout.sizeT_of_le (by omega), h.cap]

/-- `sc_vecdeque_realloc_` to the size of a growth. -/
theorem Represents.realloc_grown (h : Represents L v q) {n : ℕ}
    (hn : v.cap < max (v.cap + v.cap / 2) (max n 10)) (hmax : v.cap < L.maxCap) (memory : Bool) :
    ∃ v', v.realloc L (clampSize (L.growsize v.cap) (max n 10) L.maxCap) memory =
        some (v', memory) ∧
      Represents L v'
        (if memory then { q with room := Growing.grown L.maxCap q.room (max n 10) } else q) := by
  have hclamp : clampSize (L.growsize v.cap) (max n 10) L.maxCap =
      Growing.grown L.maxCap q.room (max n 10) := by
    rw [h.growsize]
    rfl
  have hlt : v.cap < Growing.grown L.maxCap q.room (max n 10) := by
    rw [Growing.grown, ← h.cap]
    omega
  rw [hclamp]
  cases memory with
  | false => exact ⟨v, h.realloc_of_not_memory hlt, h⟩
  | true => exact h.realloc hlt (min_le_right _ _)

/-! ### The calls -/

/-- `sc_vecdeque_push_noresize` with a cell to spare. -/
theorem Represents.pushNoresize (h : Represents L v q) (hroom : q.items.length < q.room)
    (item : α) :
    ∃ v', v.pushNoresize L item = some v' ∧
      Represents L v' { q with items := q.items ++ [item] } := by
  have htwo := h.two_cap_le
  have horigin := h.origin
  have hdata := h.data
  have hlt : v.size < v.cap := by
    rw [h.size, h.cap]
    exact hroom
  have hsize : L.sizeT (v.size + 1) = v.size + 1 := Layout.sizeT_of_le (by omega)
  have hpos : L.sizeT (v.origin + (v.size + 1) - 1) % v.cap =
      (v.origin + v.size) % v.data.length := by
    rw [Layout.sizeT_of_le (by omega), hdata]
    rfl
  rw [VecDeque.pushNoresize, if_neg (by omega), hsize]
  simp only [hpos]
  rw [if_pos (Nat.mod_lt _ (by omega))]
  refine ⟨_, rfl, h.cap, h.cap_le, ?_, horigin, ?_, ?_, ?_⟩
  · rw [List.length_set, hdata]
  · rw [List.length_append, List.length_singleton, ← h.size]
  · show v.size + 1 ≤ v.cap
    omega
  · show RingBuffer.items (v.data.set _ _) v.origin (v.size + 1) = _
    rw [RingBuffer.items_set _ (by omega), h.items, List.map_append]
    rfl

theorem Represents.call_push (h : Represents L v q) (item : α) (memory : Bool) :
    Lockstep.Agrees (Represents L) (v.call L (.push item memory))
      (q.call L.maxCap (.push item memory)) := by
  have hcap := h.cap
  have hsize := h.size
  have hsize_le := h.size_le
  rw [VecDeque.call, VecDeque.push, Growing.call, VecDeque.growIfNeeded]
  obtain hroom | hfull := lt_or_ge q.items.length q.room
  · obtain ⟨v', hv', hrep⟩ := h.pushNoresize hroom item
    rw [if_pos (by omega), if_pos hroom]
    show Lockstep.Agrees _ (Option.map _ ((v.pushNoresize L item).bind _)) _
    rw [hv']
    exact Lockstep.agrees_some hrep
  · rw [if_neg (by omega), if_neg (by omega), VecDeque.grow]
    obtain hmax | hmax := lt_or_ge v.cap L.maxCap
    · obtain ⟨v', hv', hrep⟩ := h.realloc_grown (n := 10) (by omega) hmax memory
      rw [if_pos hmax, show mincap = max 10 10 from rfl, hv']
      cases memory with
      | false =>
        rw [if_neg (by simp)]
        exact Lockstep.agrees_some hrep
      | true =>
        rw [if_pos ⟨hcap ▸ hmax, rfl⟩]
        obtain ⟨v'', hv'', hrep'⟩ := hrep.pushNoresize (by
          show q.items.length < min (max (q.room + q.room / 2) (max 10 10)) L.maxCap
          omega) item
        show Lockstep.Agrees _ (Option.map _ ((v'.pushNoresize L item).bind _)) _
        rw [hv'']
        exact Lockstep.agrees_some hrep'
    · rw [if_neg (by omega), if_neg (by omega)]
      exact Lockstep.agrees_some h

/-- `sc_vecdeque_push`. -/
theorem Represents.push (h : Represents L v q) (item : α) (memory : Bool) :
    ∃ v' pushed room, v.push L item memory = some (v', pushed) ∧
      Represents L v' ⟨if pushed then q.items ++ [item] else q.items, room⟩ ∧ q.room ≤ room ∧
      (pushed = false → q.room ≤ q.items.length) := by
  obtain ⟨⟨items, room⟩, pushed, hcall, rfl, hroom, hfull⟩ :=
    Growing.call_push L.maxCap q item memory
  have hagrees := h.call_push item memory
  rw [hcall, VecDeque.call] at hagrees
  cases hpush : v.push L item memory with
  | none =>
    rw [hpush] at hagrees
    cases hagrees
  | some x =>
    rw [hpush] at hagrees
    obtain ⟨q', heq, hrep⟩ := hagrees.exists_eq_some
    obtain ⟨rfl, hok⟩ := Prod.mk.inj (Option.some.inj heq)
    obtain rfl := QueueAnswer.ok.inj hok
    exact ⟨x.1, x.2, room, rfl, hrep, hroom, hfull⟩

theorem Represents.call_pushNoresize (h : Represents L v q) (item : α) :
    Lockstep.Agrees (Represents L) (v.call L (.pushNoresize item))
      (q.call L.maxCap (.pushNoresize item)) := by
  rw [VecDeque.call, Growing.call]
  obtain hroom | hfull := lt_or_ge q.items.length q.room
  · obtain ⟨v', hv', hrep⟩ := h.pushNoresize hroom item
    rw [if_pos hroom, hv']
    exact Lockstep.agrees_some hrep
  · have hsize : v.size = v.cap := by
      have := h.cap
      have := h.size
      have := h.size_le
      omega
    rw [if_neg (by omega), VecDeque.pushNoresize, if_pos hsize]
    exact Lockstep.agrees_none

/-- `sc_vecdeque_pop` with an item to take. -/
theorem Represents.pop {item : α} {items : List α} {room : ℕ}
    (h : Represents L v ⟨item :: items, room⟩) :
    ∃ v', v.pop L = some (v', item) ∧ Represents L v' ⟨items, room⟩ := by
  have htwo := h.two_cap_le
  have horigin := h.origin
  have hdata := h.data
  have hsize_le := h.size_le
  have hsize : v.size = items.length + 1 := h.size
  have hitems : RingBuffer.items v.data v.origin v.size = (item :: items).map some := h.items
  have hfirst : v.data[v.origin]? = some (some item) := by
    have hget : (RingBuffer.items v.data v.origin v.size)[0]? =
        v.data[(v.origin + 0) % v.data.length]? :=
      RingBuffer.getElem?_items (by omega) (by omega)
    rw [hitems, Nat.add_zero, Nat.mod_eq_of_lt (by omega)] at hget
    rw [← hget]
    rfl
  rw [VecDeque.pop, if_neg (by omega), hfirst]
  refine ⟨_, rfl, h.cap, h.cap_le, hdata, ?_, ?_, ?_, ?_⟩
  · show L.sizeT (v.origin + 1) % v.cap < max v.cap 1
    have := Nat.mod_lt (L.sizeT (v.origin + 1)) (show 0 < v.cap by omega)
    omega
  · show v.size - 1 = items.length
    omega
  · show v.size - 1 ≤ v.cap
    omega
  · show RingBuffer.items v.data (L.sizeT (v.origin + 1) % v.cap) (v.size - 1) = _
    rw [Layout.sizeT_of_le (by omega), ← hdata, RingBuffer.items_mod,
      ← RingBuffer.drop_items (by omega) (by omega), hitems]
    rfl

theorem Represents.call_pop (h : Represents L v q) :
    Lockstep.Agrees (Represents L) (v.call L .pop) (q.call L.maxCap .pop) := by
  obtain ⟨items, room⟩ := q
  cases items with
  | nil =>
    rw [VecDeque.call, VecDeque.pop, if_pos (show v.size = 0 from h.size)]
    exact Lockstep.agrees_none
  | cons item items =>
    obtain ⟨v', hv', hrep⟩ := h.pop
    rw [VecDeque.call, hv']
    exact Lockstep.agrees_some hrep

theorem Represents.call_reserve (h : Represents L v q) (n : ℕ) (memory : Bool) :
    Lockstep.Agrees (Represents L) (v.call L (.reserve n memory))
      (q.call L.maxCap (.reserve n memory)) := by
  have hcap := h.cap
  rw [VecDeque.call, VecDeque.reserve, Growing.call]
  obtain hn | hn := lt_or_ge L.maxCap n
  · rw [if_pos hn, if_pos hn]
    exact Lockstep.agrees_none
  rw [if_neg hn.not_gt, if_neg hn.not_gt, ← hcap, show mincap = 10 from rfl]
  obtain hle | hlt := le_or_gt (max n 10) v.cap
  · rw [if_pos hle, if_pos hle]
    exact Lockstep.agrees_some h
  rw [if_neg hlt.not_ge, if_neg hlt.not_ge]
  obtain hmax | hmax := le_or_gt (max n 10) L.maxCap
  · obtain ⟨v', hv', hrep⟩ := h.realloc_grown (n := n) (by omega) (by omega) memory
    rw [if_pos hmax, hv', hcap]
    cases memory with
    | false =>
      rw [if_neg (by simp)]
      exact Lockstep.agrees_some hrep
    | true =>
      rw [if_pos ⟨hmax, rfl⟩]
      exact Lockstep.agrees_some hrep
  · rw [if_neg (by omega), if_neg (by omega)]
    exact Lockstep.agrees_some h

/-- **The ring buffer is a queue that grows.** Whatever is called in whatever order, and whichever
allocations succeed, it answers as a list would, and fails exactly where the list has no answer: no
item is lost, doubled, overwritten or read before it is written, and no `size_t` overflows. -/
theorem answers_growing (L : Layout) (calls : List (QueueCall α)) :
    Lockstep.Agrees (Represents L) (Lockstep.answers (VecDeque.call L) init calls)
      (Lockstep.answers (Growing.call L.maxCap) ⟨[], 0⟩ calls) := by
  refine Lockstep.answers_rel (fun v q c h ↦ ?_) represents_init calls
  cases c with
  | push item memory => exact h.call_push item memory
  | pushNoresize item => exact h.call_pushNoresize item
  | pop => exact h.call_pop
  | reserve n memory => exact h.call_reserve n memory
  | clear => exact Lockstep.agrees_some represents_init
  | size =>
    rw [VecDeque.call, Growing.call, h.size]
    exact Lockstep.agrees_some h

end VecDeque

end AllRelay.Client
