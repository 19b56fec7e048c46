import Mathlib.Data.List.InsertIdx
import Mathlib.Data.List.Nodup
import Mathlib.Tactic.TypeStar

/-!
# Streams of a touch screen

A touch screen reports all of its pointers at once: each event lists the pointers that are on the
glass, in a fixed order, and says what one of them did. `accept` reads such events from left to
right and knows which pointers are on the glass.

A client reports one contact at a time: it goes down, moves, goes up. `report` reads such reports
for a screen with room for `capacity` contacts, which ignores any further one.

A screen that numbers its contacts keeps a list of contacts with the pointer of each. A contact that
is new enters at the end (`enter`), and one that has gone up leaves (`leave`). `accept_event` says
that the event such a screen sends for a report is accepted exactly if the report is legal.
-/

namespace MultiTouch

variable {ι κ : Type*}

/-- What one pointer did. -/
inductive Action where
  /-- The only pointer came. -/
  | down
  /-- The only pointer went. -/
  | up
  | move
  /-- One more pointer came. -/
  | pointerDown (index : ℕ)
  /-- One of several pointers went. -/
  | pointerUp (index : ℕ)
deriving DecidableEq, Repr

/-- An event of the stream. -/
structure Event (ι : Type*) where
  action : Action
  /-- The pointers on the glass, those that come or go included. -/
  pointers : List ι
deriving DecidableEq, Repr

/-- The pointers on the glass after one more event; `none` if the event does not fit. -/
def accept [DecidableEq ι] (glass : List ι) (e : Event ι) : Option (List ι) :=
  match e.action with
  | .down => if glass = [] ∧ e.pointers.length = 1 then some e.pointers else none
  | .up => if e.pointers = glass ∧ glass.length = 1 then some [] else none
  | .move => if e.pointers = glass ∧ glass ≠ [] then some glass else none
  | .pointerDown index =>
    if glass ≠ [] ∧ e.pointers.Nodup ∧ index < e.pointers.length ∧
      e.pointers.eraseIdx index = glass then some e.pointers else none
  | .pointerUp index =>
    if e.pointers = glass ∧ 2 ≤ glass.length ∧ index < glass.length then
      some (glass.eraseIdx index) else none

/-- What a client says of a contact. -/
inductive Contact where
  | down
  | move
  | up
deriving DecidableEq, Repr

/-- A contact that is down moves and goes up, and another one goes down. -/
def Contact.Legal (isDown : Prop) : Contact → Prop
  | .down => ¬isDown
  | .move => isDown
  | .up => isDown

instance (isDown : Prop) [Decidable isDown] (c : Contact) : Decidable (c.Legal isDown) :=
  match c with
  | .down => inferInstanceAs (Decidable (¬isDown))
  | .move => inferInstanceAs (Decidable isDown)
  | .up => inferInstanceAs (Decidable isDown)

/-- The contacts that are down after one more report; `none` if the report is not legal. A contact
that comes when the screen is full is ignored. -/
def report [DecidableEq κ] (capacity : ℕ) (held : List κ) (r : Contact × κ) : Option (List κ) :=
  if r.2 ∉ held ∧ capacity ≤ held.length then some held
  else if r.1.Legal (r.2 ∈ held) then
    some (match r.1 with
      | .down => held ++ [r.2]
      | .move => held
      | .up => held.erase r.2)
  else none

/-! ### A screen that numbers its contacts -/

section Numbered

variable [DecidableEq κ] (entries : List (κ × ι)) (k : κ)

/-- The contacts, and `k` at the end with the pointer `fresh` if it is not one of them. -/
def enter (fresh : ι) : List (κ × ι) :=
  if k ∈ entries.map Prod.fst then entries else entries ++ [(k, fresh)]

/-- The contacts after the report. -/
def leave (c : Contact) : List (κ × ι) :=
  if c = .up then entries.filter (·.1 ≠ k) else entries

/-- The event that the report makes, where `k` is one of the contacts. -/
def event (c : Contact) : Event ι where
  pointers := entries.map Prod.snd
  action :=
    match c with
    | .move => .move
    | .down => if entries.length = 1 then .down else .pointerDown ((entries.map Prod.fst).idxOf k)
    | .up => if entries.length = 1 then .up else .pointerUp ((entries.map Prod.fst).idxOf k)

variable {entries k} {fresh : ι} {c : Contact}

theorem enter_of_mem (h : k ∈ entries.map Prod.fst) : enter entries k fresh = entries :=
  if_pos h

theorem enter_of_not_mem (h : k ∉ entries.map Prod.fst) :
    enter entries k fresh = entries ++ [(k, fresh)] :=
  if_neg h

/-- The contact that leaves is the one at its index. -/
theorem filter_ne_eq_eraseIdx (hkeys : (entries.map Prod.fst).Nodup) :
    entries.filter (·.1 ≠ k) = entries.eraseIdx ((entries.map Prod.fst).idxOf k) := by
  induction entries with
  | nil => rfl
  | cons e entries ih =>
    rw [List.map_cons, List.nodup_cons] at hkeys
    by_cases he : e.1 = k
    · have hrest : entries.filter (·.1 ≠ k) = entries := by
        refine List.filter_eq_self.2 fun a ha ↦ ?_
        have hne : a.1 ≠ k := fun h ↦ hkeys.1 (he ▸ h ▸ List.mem_map_of_mem ha)
        simpa using hne
      rw [List.filter_cons_of_neg (by simpa using he), hrest, List.map_cons, he,
        List.idxOf_cons_self, List.eraseIdx_cons_zero]
    · rw [List.filter_cons_of_pos (by simpa using he), ih hkeys.2, List.map_cons,
        List.idxOf_cons_ne _ he, List.eraseIdx_cons_succ]

/-- The contacts follow the reports. -/
theorem report_eq_some {capacity : ℕ} (fresh : ι) (hkeys : (entries.map Prod.fst).Nodup)
    (hroom : k ∈ entries.map Prod.fst ∨ entries.length < capacity)
    (hlegal : c.Legal (k ∈ entries.map Prod.fst)) :
    report capacity (entries.map Prod.fst) (c, k) =
      some ((leave (enter entries k fresh) k c).map Prod.fst) := by
  have hfull : ¬(k ∉ entries.map Prod.fst ∧ capacity ≤ (entries.map Prod.fst).length) := by
    rw [List.length_map]
    rintro ⟨hk, hle⟩
    exact hroom.elim hk (Nat.not_lt.2 hle)
  rw [report, if_neg hfull, if_pos hlegal, Option.some.injEq]
  cases c with
  | down =>
    rw [enter_of_not_mem hlegal]
    simp [leave]
  | move =>
    rw [enter_of_mem hlegal]
    simp [leave]
  | up =>
    rw [enter_of_mem hlegal, leave, if_pos rfl, hkeys.erase_eq_filter]
    rw [List.filter_map]
    refine congrArg _ (List.filter_congr fun e _ ↦ ?_)
    simp [bne, beq_eq_decide]

theorem report_eq_none {capacity : ℕ}
    (hroom : k ∈ entries.map Prod.fst ∨ entries.length < capacity)
    (hlegal : ¬c.Legal (k ∈ entries.map Prod.fst)) :
    report capacity (entries.map Prod.fst) (c, k) = none := by
  have hfull : ¬(k ∉ entries.map Prod.fst ∧ capacity ≤ (entries.map Prod.fst).length) := by
    rw [List.length_map]
    rintro ⟨hk, hle⟩
    exact hroom.elim hk (Nat.not_lt.2 hle)
  rw [report, if_neg hfull, if_neg hlegal]

theorem report_of_full {capacity : ℕ} (hk : k ∉ entries.map Prod.fst)
    (hfull : capacity ≤ entries.length) :
    report capacity (entries.map Prod.fst) (c, k) = some (entries.map Prod.fst) :=
  if_pos ⟨hk, by rwa [List.length_map]⟩

variable [DecidableEq ι]

/-- **The event of a legal report fits**, and leaves the pointers of the contacts on the glass. -/
theorem accept_event (fresh : ι) (hkeys : (entries.map Prod.fst).Nodup)
    (hpointers : ((enter entries k fresh).map Prod.snd).Nodup)
    (hlegal : c.Legal (k ∈ entries.map Prod.fst)) :
    accept (entries.map Prod.snd) (event (enter entries k fresh) k c) =
      some ((leave (enter entries k fresh) k c).map Prod.snd) := by
  cases c with
  | down =>
    rw [enter_of_not_mem hlegal] at hpointers ⊢
    rcases entries with _ | ⟨e, entries⟩
    · simp [event, accept, leave]
    · -- The new contact is the last one, and the others are those on the glass.
      have hidx : (((e :: entries) ++ [(k, fresh)]).map Prod.fst).idxOf k =
          (e :: entries).length := by
        rw [List.map_append, List.idxOf_append_of_notMem hlegal]
        simp
      have herase : (((e :: entries) ++ [(k, fresh)]).map Prod.snd).eraseIdx
          (e :: entries).length = (e :: entries).map Prod.snd := by
        rw [List.map_append, List.eraseIdx_append_of_length_le (by simp)]
        simp
      have haction : (event ((e :: entries) ++ [(k, fresh)]) k .down).action =
          .pointerDown (e :: entries).length := by
        simp only [event, hidx]
        rw [if_neg (by simp)]
      rw [accept, haction]
      exact if_pos ⟨by simp, hpointers, by simp [event], herase⟩
  | move =>
    rw [enter_of_mem hlegal]
    have hne : entries.map Prod.snd ≠ [] := by
      rintro h
      rw [List.map_eq_nil_iff.1 h] at hlegal
      simp [Contact.Legal] at hlegal
    simp [event, accept, leave, hne]
  | up =>
    rw [enter_of_mem hlegal]
    have hidx : (entries.map Prod.fst).idxOf k < entries.length := by
      have := List.idxOf_lt_length_of_mem hlegal
      rwa [List.length_map] at this
    have hleave : (leave entries k .up).map Prod.snd =
        (entries.map Prod.snd).eraseIdx ((entries.map Prod.fst).idxOf k) := by
      rw [leave, if_pos rfl, filter_ne_eq_eraseIdx hkeys, List.eraseIdx_map]
    rw [hleave, accept]
    by_cases hone : entries.length = 1
    · obtain ⟨e, rfl⟩ := List.length_eq_one_iff.1 hone
      have hzero : ([e].map Prod.fst).idxOf k = 0 := Nat.lt_one_iff.1 hidx
      rw [hzero]
      simp [event]
    · have haction : (event entries k .up).action =
          .pointerUp ((entries.map Prod.fst).idxOf k) := by
        simp only [event]
        rw [if_neg hone]
      rw [haction]
      exact if_pos ⟨rfl, by rw [List.length_map]; omega, by rwa [List.length_map]⟩

/-- **The event of any other report does not fit.** -/
theorem accept_event_eq_none (fresh : ι) (hlegal : ¬c.Legal (k ∈ entries.map Prod.fst)) :
    accept (entries.map Prod.snd) (event (enter entries k fresh) k c) = none := by
  -- A contact that moves or goes up without being down lists a pointer too many.
  have hlonger (h : k ∉ entries.map Prod.fst) :
      (enter entries k fresh).map Prod.snd ≠ entries.map Prod.snd := by
    intro heq
    have := congrArg List.length heq
    simp [enter_of_not_mem h] at this
  cases c with
  | down =>
    have hk : k ∈ entries.map Prod.fst := not_not.1 hlegal
    rw [enter_of_mem hk, accept]
    have hidx : (entries.map Prod.fst).idxOf k < entries.length := by
      have := List.idxOf_lt_length_of_mem hk
      rwa [List.length_map] at this
    by_cases hone : entries.length = 1
    · have haction : (event entries k .down).action = .down := by simp [event, hone]
      rw [haction]
      refine if_neg fun h ↦ ?_
      rw [List.map_eq_nil_iff.1 h.1] at hone
      simp at hone
    · have haction : (event entries k .down).action =
          .pointerDown ((entries.map Prod.fst).idxOf k) := by
        simp only [event]
        rw [if_neg hone]
      rw [haction]
      refine if_neg fun h ↦ ?_
      have := congrArg List.length h.2.2.2
      rw [List.length_eraseIdx_of_lt h.2.2.1] at this
      simp only [event, List.length_map] at this
      omega
  | move =>
    rw [accept]
    exact if_neg fun h ↦ hlonger hlegal h.1
  | up =>
    rw [accept]
    by_cases hone : (enter entries k fresh).length = 1
    · have haction : (event (enter entries k fresh) k .up).action = .up := by simp [event, hone]
      rw [haction]
      exact if_neg fun h ↦ hlonger hlegal h.1
    · have haction : (event (enter entries k fresh) k .up).action =
          .pointerUp (((enter entries k fresh).map Prod.fst).idxOf k) := by
        simp only [event]
        rw [if_neg hone]
      rw [haction]
      exact if_neg fun h ↦ hlonger hlegal h.1

end Numbered

end MultiTouch
