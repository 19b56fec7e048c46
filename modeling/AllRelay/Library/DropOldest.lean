import Mathlib.Data.List.Basic
import Mathlib.Tactic.TypeStar

/-!
# Queues that remember

A producer appends to a queue and several parties take from its front: a consumer, and the producer
itself when it discards the oldest item to make room. A `DropOldest.Queue` keeps the items that were
taken, in order, each with the party that took it. What was put in is then what was taken followed
by what is left (`Queue.pushed`), and what one party took is a sublist of it
(`Queue.taken_sublist`).
-/

namespace DropOldest

variable {α κ : Type*}

/-- A queue, and what was taken from it. -/
structure Queue (α κ : Type*) where
  /-- What was taken, in order, and who took it. -/
  removed : List (α × κ)
  /-- What is left. -/
  items : List α
deriving DecidableEq, Repr

namespace Queue

/-- No item. -/
def empty : Queue α κ := ⟨[], []⟩

/-- Append an item. -/
def push (q : Queue α κ) (a : α) : Queue α κ :=
  ⟨q.removed, q.items ++ [a]⟩

/-- Take the oldest item. -/
def pop (k : κ) : Queue α κ → Option (α × Queue α κ)
  | ⟨_, []⟩ => none
  | ⟨removed, a :: items⟩ => some (a, ⟨removed ++ [(a, k)], items⟩)

/-- Everything that was appended, in order. -/
def pushed (q : Queue α κ) : List α :=
  q.removed.map Prod.fst ++ q.items

/-- What one party took, in order. -/
def taken [DecidableEq κ] (q : Queue α κ) (k : κ) : List α :=
  (q.removed.filter (·.2 = k)).map Prod.fst

variable {q q' : Queue α κ} {a : α} {k : κ}

@[simp]
theorem removed_push (q : Queue α κ) (a : α) : (q.push a).removed = q.removed :=
  rfl

@[simp]
theorem items_push (q : Queue α κ) (a : α) : (q.push a).items = q.items ++ [a] :=
  rfl

@[simp]
theorem pushed_push (q : Queue α κ) (a : α) : (q.push a).pushed = q.pushed ++ [a] :=
  (List.append_assoc ..).symm

/-- What taking an item does. -/
theorem pop_eq_some_iff :
    q.pop k = some (a, q') ↔ q.items = a :: q'.items ∧ q'.removed = q.removed ++ [(a, k)] := by
  obtain ⟨removed, _ | ⟨b, items⟩⟩ := q
  · refine iff_of_false (fun h ↦ ?_) fun h ↦ ?_
    · simp [pop] at h
    · simp at h
  · obtain ⟨removed', items'⟩ := q'
    rw [pop, Option.some.injEq, Prod.mk.injEq, Queue.mk.injEq, List.cons.injEq]
    constructor
    · rintro ⟨rfl, rfl, rfl⟩
      exact ⟨⟨rfl, rfl⟩, rfl⟩
    · rintro ⟨⟨rfl, rfl⟩, rfl⟩
      exact ⟨rfl, rfl, rfl⟩

/-- Nothing can be taken from a queue exactly when it is empty. -/
theorem pop_eq_none_iff : q.pop k = none ↔ q.items = [] := by
  obtain ⟨removed, _ | ⟨b, items⟩⟩ := q
  · exact iff_of_true rfl rfl
  · refine iff_of_false (fun h ↦ ?_) (List.cons_ne_nil _ _)
    simp [pop] at h

/-- Taking an item leaves what was appended alone. -/
theorem pushed_pop (h : q.pop k = some (a, q')) : q'.pushed = q.pushed := by
  obtain ⟨hitems, hremoved⟩ := pop_eq_some_iff.1 h
  rw [pushed, pushed, hitems, hremoved, List.map_append, List.append_assoc]
  rfl

theorem length_items_pop (h : q.pop k = some (a, q')) :
    q.items.length = q'.items.length + 1 := by
  rw [(pop_eq_some_iff.1 h).1, List.length_cons]

section Taken

variable [DecidableEq κ]

@[simp]
theorem taken_push (q : Queue α κ) (a : α) (k : κ) : (q.push a).taken k = q.taken k :=
  rfl

/-- The party that takes an item has it as its last. -/
theorem taken_pop (h : q.pop k = some (a, q')) : q'.taken k = q.taken k ++ [a] := by
  rw [taken, (pop_eq_some_iff.1 h).2, List.filter_append, List.map_append, taken]
  simp

/-- The other parties have what they had. -/
theorem taken_pop_of_ne {j : κ} (h : q.pop k = some (a, q')) (hj : k ≠ j) :
    q'.taken j = q.taken j := by
  rw [taken, (pop_eq_some_iff.1 h).2, List.filter_append, List.map_append, taken]
  simp [hj]

/-- What one party took was appended, in this order. -/
theorem taken_sublist (q : Queue α κ) (k : κ) : (q.taken k).Sublist q.pushed :=
  ((q.removed.filter_sublist).map Prod.fst).trans (List.sublist_append_left ..)

/-- Between two parties, everything that was appended and is not left was taken by one of them. -/
theorem length_pushed (q : Queue α κ) {j k : κ} (h : ∀ i, i = j ∨ i = k) (hjk : j ≠ k) :
    q.pushed.length = (q.taken j).length + (q.taken k).length + q.items.length := by
  have hfilter : (fun x : α × κ ↦ !decide (x.2 = j)) = fun x ↦ decide (x.2 = k) := by
    funext x
    obtain hx | hx := h x.2
    · simp [hx, hjk]
    · simp [hx, hjk.symm]
  have hsplit := List.length_eq_length_filter_add (l := q.removed) (·.2 = j)
  rw [hfilter] at hsplit
  rw [pushed, taken, taken, List.length_append, List.length_map, List.length_map, List.length_map,
    ← hsplit]

end Taken

end Queue

end DropOldest
