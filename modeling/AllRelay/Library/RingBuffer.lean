import Mathlib.Data.List.Rotate
import Mathlib.Data.Nat.ModEq

/-!
# Ring buffers

The items of a ring buffer lie in its cells one behind the other, from a start on, and go on in the
first cell behind the last one. `RingBuffer.items cells start n` is the list of `n` of them. Its
lemmas say what the operations of a ring buffer do to this list: an item is written behind the last
one (`items_set`), items are taken from the front (`drop_items`), a cell that holds no item changes
(`items_set_of_le`), the items are copied in two parts (`items_eq_append`), and the array grows
behind items that do not go around (`items_append`). Of two cursors, `between_mod` says how many
items lie between them and `room_mod` how many fit behind the second one.
-/

namespace RingBuffer

variable {α : Type*} {cells : List α} {start n i j : ℕ}

/-- The `n` items from a start on. -/
def items (cells : List α) (start n : ℕ) : List α :=
  (cells.rotate start).take n

/-! ### The cells of the items -/

/-- Two items have two cells. -/
theorem add_mod_ne {size : ℕ} (hij : i < j) (hj : j < size) :
    (start + i) % size ≠ (start + j) % size := by
  intro h
  have hmod : Nat.ModEq size i j := Nat.ModEq.add_left_cancel' start h
  rw [Nat.ModEq, Nat.mod_eq_of_lt (hij.trans hj), Nat.mod_eq_of_lt hj] at hmod
  omega

/-! ### What is in the list -/

@[simp]
theorem items_zero (cells : List α) (start : ℕ) : items cells start 0 = [] :=
  List.take_zero

theorem length_items (hn : n ≤ cells.length) : (items cells start n).length = n := by
  rw [items, List.length_take, List.length_rotate]
  omega

theorem items_mod (cells : List α) (start n : ℕ) :
    items cells (start % cells.length) n = items cells start n := by
  rw [items, List.rotate_mod, items]

theorem items_start_zero (cells : List α) (n : ℕ) : items cells 0 n = cells.take n := by
  rw [items, List.rotate_zero]

/-- The `i`-th item is in its cell. -/
theorem getElem?_items (hi : i < n) (hn : n ≤ cells.length) :
    (items cells start n)[i]? = cells[(start + i) % cells.length]? := by
  rw [items, List.getElem?_take_of_lt hi, List.getElem?_rotate (hi.trans_le hn), Nat.add_comm]

/-- Two lists of items are the same if they have the same cells. -/
theorem items_congr {cells' : List α} (hlength : cells'.length = cells.length)
    (hn : n ≤ cells.length)
    (h : ∀ i < n, cells'[(start + i) % cells.length]? = cells[(start + i) % cells.length]?) :
    items cells' start n = items cells start n := by
  have hn' : n ≤ cells'.length := hlength ▸ hn
  refine List.ext_getElem? fun i ↦ ?_
  obtain hi | hi := lt_or_ge i n
  · rw [getElem?_items hi hn', getElem?_items hi hn, hlength, h i hi]
  · rw [List.getElem?_eq_none ((length_items hn').trans_le hi),
      List.getElem?_eq_none ((length_items hn).trans_le hi)]

/-! ### Taking items from the front -/

theorem take_items (cells : List α) (start n k : ℕ) :
    (items cells start n).take k = items cells start (min k n) := by
  rw [items, items, List.take_take]

theorem drop_items {k : ℕ} (hk : k ≤ n) (hn : n ≤ cells.length) :
    (items cells start n).drop k = items cells (start + k) (n - k) := by
  refine List.ext_getElem? fun i ↦ ?_
  rw [List.getElem?_drop]
  obtain hi | hi := lt_or_ge (k + i) n
  · rw [getElem?_items hi hn, getElem?_items (by omega) (by omega), Nat.add_assoc]
  · rw [List.getElem?_eq_none ((length_items hn).trans_le hi),
      List.getElem?_eq_none ((length_items (by omega)).trans_le (by omega))]

/-- The items split into the first ones and those behind them. -/
theorem items_add {k : ℕ} (h : k + n ≤ cells.length) :
    items cells start (k + n) = items cells start k ++ items cells (start + k) n := by
  have hdrop : (items cells start (k + n)).drop k = items cells (start + k) n := by
    rw [drop_items (Nat.le_add_right k n) h, Nat.add_sub_cancel_left]
  have htake : (items cells start (k + n)).take k = items cells start k := by
    rw [take_items, Nat.min_eq_left (Nat.le_add_right k n)]
  rw [← hdrop, ← htake, List.take_append_drop]

/-! ### Writing a cell -/

/-- A cell behind the items may change. -/
theorem items_set_of_le {k : ℕ} (a : α) (hk : n ≤ k) (hlength : k < cells.length) :
    items (cells.set ((start + k) % cells.length) a) start n = items cells start n := by
  refine items_congr List.length_set (by omega) fun i hi ↦ ?_
  exact List.getElem?_set_ne (add_mod_ne (hi.trans_le hk) hlength).symm

/-- An item is written behind the last one. -/
theorem items_set (a : α) (hn : n < cells.length) :
    items (cells.set ((start + n) % cells.length) a) start (n + 1) =
      items cells start n ++ [a] := by
  have hlength : (cells.set ((start + n) % cells.length) a).length = cells.length :=
    List.length_set
  have hlast : items (cells.set ((start + n) % cells.length) a) (start + n) 1 = [a] := by
    refine List.ext_getElem? fun i ↦ ?_
    obtain hi | hi := lt_or_ge i 1
    · obtain rfl : i = 0 := by omega
      rw [getElem?_items hi (by omega), hlength, Nat.add_zero,
        List.getElem?_set_self (Nat.mod_lt _ (by omega)), List.getElem?_cons_zero]
    · rw [List.getElem?_eq_none ((length_items (by omega)).trans_le hi),
        List.getElem?_eq_none hi]
  rw [items_add (by omega), items_set_of_le a le_rfl hn, hlast]

/-! ### Copying the items -/

/-- The items lie in two parts: up to the end of the cells, and from their start on. -/
theorem items_eq_append (hstart : start ≤ cells.length) (hn : n ≤ cells.length) :
    items cells start n =
      (cells.drop start).take n ++ cells.take (n - (cells.length - start)) := by
  rw [items, List.rotate_eq_drop_append_take hstart, List.take_append, List.take_take,
    List.length_drop, Nat.min_eq_left (by omega)]

/-- The array may grow behind items that do not go around. -/
theorem items_append (more : List α) (h : start + n ≤ cells.length) :
    items (cells ++ more) start n = items cells start n := by
  rw [items_eq_append (by rw [List.length_append]; omega) (by rw [List.length_append]; omega),
    items_eq_append (by omega) (by omega), List.length_append,
    Nat.sub_eq_zero_of_le (show n ≤ cells.length + more.length - start by omega),
    Nat.sub_eq_zero_of_le (show n ≤ cells.length - start by omega),
    List.drop_append_of_le_length (by omega),
    List.take_append_of_le_length (by rw [List.length_drop]; omega), List.take_zero, List.take_zero]

/-! ### Two cursors -/

/-- What lies between two cursors. -/
theorem between_mod {size r s : ℕ} (h : r ≤ s) (hlt : s < r + size) :
    (size + s % size - r % size) % size = s - r := by
  obtain ⟨d, rfl⟩ := Nat.exists_eq_add_of_le h
  have hr : r % size < size := Nat.mod_lt r (by omega)
  rw [← Nat.mod_add_mod r size d, Nat.add_sub_cancel_left]
  obtain hd | hd := lt_or_ge (r % size + d) size
  · rw [Nat.mod_eq_of_lt hd, show size + (r % size + d) - r % size = size + d by omega,
      Nat.add_mod_left, Nat.mod_eq_of_lt (by omega)]
  · rw [Nat.mod_eq_sub_mod hd, Nat.mod_eq_of_lt (show r % size + d - size < size by omega),
      show size + (r % size + d - size) - r % size = d by omega, Nat.mod_eq_of_lt (by omega)]

/-- What is free between two cursors, with a cell to spare. -/
theorem room_mod {size r s : ℕ} (h : r ≤ s) (hlt : s < r + size) :
    (size + r % size - s % size - 1) % size = size - 1 - (s - r) := by
  obtain ⟨d, rfl⟩ := Nat.exists_eq_add_of_le h
  have hr : r % size < size := Nat.mod_lt r (by omega)
  rw [← Nat.mod_add_mod r size d, Nat.add_sub_cancel_left]
  obtain hd | hd := lt_or_ge (r % size + d) size
  · rw [Nat.mod_eq_of_lt hd, Nat.mod_eq_of_lt (by omega)]
    omega
  · rw [Nat.mod_eq_sub_mod hd, Nat.mod_eq_of_lt (show r % size + d - size < size by omega),
      show size + r % size - (r % size + d - size) - 1 = size + (size - 1 - d) by omega,
      Nat.add_mod_left, Nat.mod_eq_of_lt (by omega)]

end RingBuffer
