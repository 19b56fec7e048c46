import Mathlib.Algebra.BigOperators.Group.List.Basic
import Mathlib.Algebra.GroupWithZero.Nat
import Mathlib.Data.List.Basic

/-!
# Lacing

A packet is laced into segments of `m` units, the last of which is shorter and may be empty, so that
the lengths of the segments of a stream tell where its packets end. `segments` cuts a packet, and
`completed` puts the packets of a stream together again (`completed_flatMap_segments`).

The segments of a stream may be grouped in any way. Groups that are reassembled one by one give the
packets of the whole only if each of them is `Closed`: otherwise something is missing, which `load`
weighs (`size_completed_lt`).
-/

namespace Lacing

variable {α : Type*} {m : ℕ} {packet : List α} {ss : List (List α)}

/-- The segments of a packet. -/
def segments (m : ℕ) (packet : List α) : List (List α) :=
  (List.range (packet.length / m + 1)).map fun i ↦ (packet.drop (i * m)).take m

/-- The packets that some segments complete, after what `acc` holds of the first of them. -/
def completedFrom (m : ℕ) : List α → List (List α) → List (List α)
  | _, [] => []
  | acc, s :: ss =>
    if s.length < m then (acc ++ s) :: completedFrom m [] ss else completedFrom m (acc ++ s) ss

/-- The packets that some segments complete. -/
def completed (m : ℕ) (ss : List (List α)) : List (List α) :=
  completedFrom m [] ss

/-- The last of some segments ends a packet, or there are none. -/
def Closed (m : ℕ) (ss : List (List α)) : Prop :=
  ∀ s ∈ ss.getLast?, s.length < m

instance : Decidable (Closed m ss) :=
  decidable_of_iff (ss.getLast?.all (·.length < m) = true) (by
    rw [Closed]
    cases ss.getLast? <;> simp)

theorem closed_nil : Closed m ([] : List (List α)) := by
  intro s hs
  cases hs

theorem closed_singleton {s : List α} : Closed m [s] ↔ s.length < m := by
  refine ⟨fun h ↦ h s rfl, fun h t ht ↦ ?_⟩
  obtain rfl : s = t := Option.some.inj ht
  exact h

theorem closed_cons {s : List α} (hne : ss ≠ []) : Closed m (s :: ss) ↔ Closed m ss := by
  rw [Closed, List.getLast?_cons_of_ne_nil hne]
  rfl

/-! ### Cutting -/

theorem segments_of_lt (h : packet.length < m) : segments m packet = [packet] := by
  rw [segments, Nat.div_eq_of_lt h]
  show [(packet.drop (0 * m)).take m] = [packet]
  rw [Nat.zero_mul, List.drop_zero, List.take_of_length_le (Nat.le_of_lt h)]

theorem segments_of_le (hm : 0 < m) (h : m ≤ packet.length) :
    segments m packet = packet.take m :: segments m (packet.drop m) := by
  have hdiv : packet.length / m = (packet.length - m) / m + 1 := by
    rw [Nat.div_eq_sub_div hm h]
  rw [segments, hdiv, List.range_succ_eq_map, List.map_cons, List.map_map, Nat.zero_mul,
    List.drop_zero, segments, List.length_drop]
  congr 1
  refine List.map_congr_left fun i _ ↦ ?_
  show (packet.drop ((i + 1) * m)).take m = ((packet.drop m).drop (i * m)).take m
  rw [List.drop_drop, Nat.add_mul, Nat.one_mul, Nat.add_comm m]

/-- **The induction over the segments** of a packet. -/
theorem segments_induction (hm : 0 < m) {motive : List α → Prop}
    (short : ∀ packet, packet.length < m → motive packet)
    (long : ∀ packet, m ≤ packet.length → motive (packet.drop m) → motive packet)
    (packet : List α) : motive packet := by
  induction hlen : packet.length using Nat.strongRecOn generalizing packet with
  | ind n ih =>
    obtain hlt | hle := Nat.lt_or_ge packet.length m
    · exact short packet hlt
    · refine long packet hle (ih _ ?_ _ rfl)
      rw [List.length_drop]
      omega

/-! ### Reassembly -/

/-- **One packet**, in front of whatever follows. -/
theorem completedFrom_segments (hm : 0 < m) (acc packet : List α) (ts : List (List α)) :
    completedFrom m acc (segments m packet ++ ts) = (acc ++ packet) :: completed m ts := by
  induction packet using segments_induction hm generalizing acc with
  | short packet hlt =>
    rw [segments_of_lt hlt, List.singleton_append, completedFrom, if_pos hlt]
    rfl
  | long packet hle ih =>
    have htake : ¬(packet.take m).length < m := by
      rw [List.length_take_of_le hle]
      exact Nat.lt_irrefl m
    rw [segments_of_le hm hle, List.cons_append, completedFrom, if_neg htake, ih,
      List.append_assoc, List.take_append_drop]

/-- **Round trip** of a stream of packets. -/
theorem completed_flatMap_segments (hm : 0 < m) (packets : List (List α)) :
    completed m (packets.flatMap (segments m)) = packets := by
  induction packets with
  | nil => rfl
  | cons packet packets ih =>
    rw [List.flatMap_cons, completed, completedFrom_segments hm, ih, List.nil_append]

/-- A stream may be reassembled in two parts where a packet ends. -/
theorem completedFrom_append (hclosed : Closed m ss) (hne : ss ≠ []) (acc : List α)
    (ts : List (List α)) :
    completedFrom m acc (ss ++ ts) = completedFrom m acc ss ++ completed m ts := by
  induction ss generalizing acc with
  | nil => exact absurd rfl hne
  | cons s ss ih =>
    rw [List.cons_append, completedFrom, completedFrom]
    by_cases hss : ss = []
    · subst hss
      have hs := closed_singleton.1 hclosed
      rw [if_pos hs, if_pos hs]
      rfl
    · rw [closed_cons hss] at hclosed
      split
      · rw [ih hclosed hss, List.cons_append]
      · exact ih hclosed hss _

theorem completed_append (hclosed : Closed m ss) (ts : List (List α)) :
    completed m (ss ++ ts) = completed m ss ++ completed m ts := by
  by_cases hss : ss = []
  · rw [hss]
    rfl
  · exact completedFrom_append hclosed hss [] ts

/-- Segments that end a packet complete one. -/
theorem completedFrom_ne_nil (hclosed : Closed m ss) (hne : ss ≠ []) (acc : List α) :
    completedFrom m acc ss ≠ [] := by
  induction ss generalizing acc with
  | nil => exact absurd rfl hne
  | cons s ss ih =>
    rw [completedFrom]
    split
    · exact List.cons_ne_nil _ _
    · rename_i hs
      by_cases hss : ss = []
      · subst hss
        exact absurd (closed_singleton.1 hclosed) hs
      · exact ih ((closed_cons hss).1 hclosed) hss _

/-! ### Nothing lost -/

/-- What some segments hold: their units, and the ends of packets. -/
def load (m : ℕ) (ss : List (List α)) : ℕ :=
  (ss.map fun s ↦ s.length + if s.length < m then 1 else 0).sum

/-- What some packets hold: their units, and their ends. -/
def size (packets : List (List α)) : ℕ :=
  (packets.map fun packet ↦ packet.length + 1).sum

theorem load_cons (s : List α) (ss : List (List α)) :
    load m (s :: ss) = s.length + (if s.length < m then 1 else 0) + load m ss := by
  rw [load, List.map_cons, List.sum_cons]
  rfl

theorem size_cons (packet : List α) (packets : List (List α)) :
    size (packet :: packets) = packet.length + 1 + size packets := by
  rw [size, List.map_cons, List.sum_cons]
  rfl

theorem load_append (ss ts : List (List α)) : load m (ss ++ ts) = load m ss + load m ts := by
  rw [load, List.map_append, List.sum_append]
  rfl

theorem size_append (packets more : List (List α)) :
    size (packets ++ more) = size packets + size more := by
  rw [size, List.map_append, List.sum_append]
  rfl

theorem load_pos (hm : 0 < m) (hne : ss ≠ []) : 0 < load m ss := by
  obtain ⟨s, ss, rfl⟩ := List.exists_cons_of_ne_nil hne
  rw [load_cons]
  split <;> omega

/-- Reassembly gives out no more than there is, and all of it where a packet ends. -/
theorem size_completedFrom (hm : 0 < m) (acc : List α) (ss : List (List α)) :
    size (completedFrom m acc ss) ≤ acc.length + load m ss ∧
      (¬Closed m ss → size (completedFrom m acc ss) < acc.length + load m ss) := by
  induction ss generalizing acc with
  | nil => exact ⟨Nat.zero_le _, fun h ↦ absurd closed_nil h⟩
  | cons s ss ih =>
    have hopen : ¬Closed m (s :: ss) → s.length < m → ¬Closed m ss := by
      intro h hs hclosed
      by_cases hss : ss = []
      · subst hss
        exact h (closed_singleton.2 hs)
      · exact h ((closed_cons hss).2 hclosed)
    rw [completedFrom, load_cons]
    split
    · rename_i hs
      obtain ⟨hle, hlt⟩ := ih []
      rw [List.length_nil] at hle hlt
      rw [size_cons, List.length_append]
      exact ⟨by omega, fun h ↦ by have := hlt (hopen h hs); omega⟩
    · rename_i hs
      obtain ⟨hle, hlt⟩ := ih (acc ++ s)
      rw [List.length_append] at hle hlt
      refine ⟨by omega, fun h ↦ ?_⟩
      by_cases hss : ss = []
      · subst hss
        show 0 < _
        omega
      · have := hlt fun hclosed ↦ h ((closed_cons hss).2 hclosed)
        omega

theorem size_completed_le (hm : 0 < m) (ss : List (List α)) :
    size (completed m ss) ≤ load m ss := by
  have hle := (size_completedFrom hm [] ss).1
  rwa [List.length_nil, Nat.zero_add] at hle

/-- **What is missing** when a packet goes on behind the segments. -/
theorem size_completed_lt (hm : 0 < m) (h : ¬Closed m ss) : size (completed m ss) < load m ss := by
  have hlt := (size_completedFrom hm [] ss).2 h
  rwa [List.length_nil, Nat.zero_add] at hlt

theorem load_segments (hm : 0 < m) (packet : List α) :
    load m (segments m packet) = packet.length + 1 := by
  induction packet using segments_induction hm with
  | short packet hlt =>
    rw [segments_of_lt hlt, load_cons, if_pos hlt]
    rfl
  | long packet hle ih =>
    rw [segments_of_le hm hle, load_cons, List.length_take_of_le hle, if_neg (Nat.lt_irrefl m), ih,
      List.length_drop]
    omega

/-- The segments of some packets hold just these. -/
theorem load_flatMap_segments (hm : 0 < m) (packets : List (List α)) :
    load m (packets.flatMap (segments m)) = size packets := by
  induction packets with
  | nil => rfl
  | cons packet packets ih =>
    rw [List.flatMap_cons, load_append, load_segments hm, ih, size_cons]

end Lacing
