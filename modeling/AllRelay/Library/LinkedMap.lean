import Mathlib.Data.List.Nodup

/-!
# Maps in insertion order

A `LinkedMap` is a list of entries with distinct keys, the oldest first, like Java's
`LinkedHashMap`. Entering values under a key of their own, unless that key is there, leaves for each
key the first value (`entries_foldl_putIfAbsent`); `firstBy` says which values these are.
-/

variable {κ β : Type*} [DecidableEq κ]

/-- A map that keeps its entries in insertion order. -/
structure LinkedMap (κ ν : Type*) where
  entries : List (κ × ν)
  nodup : (entries.map Prod.fst).Nodup

namespace LinkedMap

variable {ν : Type*}

/-- The empty map. -/
def empty : LinkedMap κ ν where
  entries := []
  nodup := List.nodup_nil

/-- `values`. -/
def values (m : LinkedMap κ ν) : List ν :=
  m.entries.map Prod.snd

/-- `put` of a new key. -/
def putNew (m : LinkedMap κ ν) (key : κ) (value : ν) (h : key ∉ m.entries.map Prod.fst) :
    LinkedMap κ ν where
  entries := m.entries ++ [(key, value)]
  nodup := by
    rw [List.map_append, List.map_singleton, ← List.concat_eq_append]
    exact m.nodup.concat h

/-- `putIfAbsent`. -/
def putIfAbsent (m : LinkedMap κ ν) (key : κ) (value : ν) : LinkedMap κ ν :=
  if h : key ∈ m.entries.map Prod.fst then m else m.putNew key value h

/-- `remove`. -/
def remove (m : LinkedMap κ ν) (key : κ) : LinkedMap κ ν where
  entries := m.entries.filter fun entry ↦ entry.1 ≠ key
  nodup := m.nodup.sublist (List.filter_sublist.map Prod.fst)

/-- `put`; a key that is there keeps its place. -/
def put (m : LinkedMap κ ν) (key : κ) (value : ν) : LinkedMap κ ν :=
  if h : key ∈ m.entries.map Prod.fst then
    { entries := m.entries.map fun entry ↦ (entry.1, if entry.1 = key then value else entry.2)
      nodup := by
        rw [List.map_map]
        exact m.nodup }
  else m.putNew key value h

/-- What was removed is put at the end. -/
theorem values_put_remove (m : LinkedMap κ ν) (key : κ) (value : ν) :
    ((m.remove key).put key value).values =
      ((m.entries.filter fun entry ↦ entry.1 ≠ key).map Prod.snd) ++ [value] := by
  have hnot : key ∉ (m.remove key).entries.map Prod.fst := by
    simp [remove]
  rw [put, dif_neg hnot, values, putNew, List.map_append]
  rfl

/-! ### What is put is found -/

theorem mem_entries_put {m : LinkedMap κ ν} {key k : κ} {value v : ν} :
    (k, v) ∈ (m.put key value).entries ↔
      k = key ∧ v = value ∨ k ≠ key ∧ (k, v) ∈ m.entries := by
  rw [put]
  split
  · rename_i hmem
    constructor
    · intro h
      obtain ⟨⟨k', v'⟩, he, heq⟩ := List.mem_map.1 h
      obtain ⟨rfl, rfl⟩ := Prod.mk.inj heq
      by_cases hk : k' = key
      · exact .inl ⟨hk, if_pos hk⟩
      · exact .inr ⟨hk, by rwa [if_neg hk]⟩
    · rintro (⟨rfl, rfl⟩ | ⟨hk, he⟩)
      · obtain ⟨⟨k', v'⟩, he, rfl⟩ := List.mem_map.1 hmem
        exact List.mem_map.2 ⟨(k', v'), he, Prod.ext rfl (if_pos rfl)⟩
      · exact List.mem_map.2 ⟨(k, v), he, Prod.ext rfl (if_neg hk)⟩
  · rename_i hnew
    show (k, v) ∈ m.entries ++ [(key, value)] ↔ _
    rw [List.mem_append, List.mem_singleton, Prod.mk.injEq]
    constructor
    · rintro (he | hnew')
      · refine .inr ⟨?_, he⟩
        rintro rfl
        exact hnew (List.mem_map.2 ⟨(k, v), he, rfl⟩)
      · exact .inl hnew'
    · rintro (hnew' | ⟨-, he⟩)
      · exact .inr hnew'
      · exact .inl he

theorem mem_keys_put {m : LinkedMap κ ν} {key k : κ} {value : ν} :
    k ∈ (m.put key value).entries.map Prod.fst ↔ k = key ∨ k ∈ m.entries.map Prod.fst := by
  constructor
  · intro h
    obtain ⟨⟨k, v⟩, he, rfl⟩ := List.mem_map.1 h
    obtain ⟨rfl, -⟩ | ⟨-, he⟩ := mem_entries_put.1 he
    · exact .inl rfl
    · exact .inr (List.mem_map.2 ⟨(k, v), he, rfl⟩)
  · intro h
    by_cases hk : k = key
    · exact List.mem_map.2 ⟨(k, value), mem_entries_put.2 (.inl ⟨hk, rfl⟩), rfl⟩
    · obtain ⟨⟨k, v⟩, he, rfl⟩ := List.mem_map.1 (h.resolve_left hk)
      exact List.mem_map.2 ⟨(k, v), mem_entries_put.2 (.inr ⟨hk, he⟩), rfl⟩

/-- The keys of a map that is filled. -/
theorem mem_keys_foldl_put {k : κ} (pairs : List (κ × ν)) (m : LinkedMap κ ν) :
    k ∈ (pairs.foldl (fun m pair ↦ m.put pair.1 pair.2) m).entries.map Prod.fst ↔
      k ∈ m.entries.map Prod.fst ∨ k ∈ pairs.map Prod.fst := by
  induction pairs generalizing m with
  | nil => simp
  | cons pair pairs ih =>
    rw [List.foldl_cons, ih, mem_keys_put, List.map_cons, List.mem_cons, or_assoc, or_left_comm]

/-- **What a map is filled with**, if no key comes with two values. -/
theorem mem_foldl_put {k : κ} {v : ν} {pairs : List (κ × ν)} {m : LinkedMap κ ν}
    (hm : ∀ p ∈ pairs, ∀ e ∈ m.entries, p.1 = e.1 → p.2 = e.2)
    (hpairs : ∀ p ∈ pairs, ∀ q ∈ pairs, p.1 = q.1 → p.2 = q.2) :
    (k, v) ∈ (pairs.foldl (fun m pair ↦ m.put pair.1 pair.2) m).entries ↔
      (k, v) ∈ m.entries ∨ (k, v) ∈ pairs := by
  induction pairs generalizing m with
  | nil => simp
  | cons pair pairs ih =>
    have hput : ∀ {k v}, (k, v) ∈ (m.put pair.1 pair.2).entries ↔
        (k, v) = pair ∨ (k, v) ∈ m.entries := by
      intro k v
      rw [mem_entries_put]
      constructor
      · rintro (⟨rfl, rfl⟩ | ⟨-, he⟩)
        · exact .inl rfl
        · exact .inr he
      · rintro (rfl | he)
        · exact .inl ⟨rfl, rfl⟩
        · by_cases hk : k = pair.1
          · exact .inl ⟨hk, (hm pair List.mem_cons_self (k, v) he hk.symm).symm⟩
          · exact .inr ⟨hk, he⟩
    have hm' : ∀ p ∈ pairs, ∀ e ∈ (m.put pair.1 pair.2).entries, p.1 = e.1 → p.2 = e.2 := by
      rintro p hp ⟨k, v⟩ he hkey
      obtain heq | he := hput.1 he
      · rw [heq] at hkey ⊢
        exact hpairs p (List.mem_cons_of_mem _ hp) pair List.mem_cons_self hkey
      · exact hm p (List.mem_cons_of_mem _ hp) (k, v) he hkey
    have hpairs' : ∀ p ∈ pairs, ∀ q ∈ pairs, p.1 = q.1 → p.2 = q.2 := fun p hp q hq ↦
      hpairs p (List.mem_cons_of_mem _ hp) q (List.mem_cons_of_mem _ hq)
    rw [List.foldl_cons, ih hm' hpairs', hput, List.mem_cons, or_assoc, or_left_comm]

end LinkedMap

/-! ### First occurrences -/

/-- The entries whose key did not occur before. -/
def firstBy (key : β → κ) : List β → List β
  | [] => []
  | b :: bs => b :: (firstBy key bs).filter fun b' ↦ key b' ≠ key b

variable {key : β → κ}

theorem firstBy_sublist (bs : List β) : (firstBy key bs).Sublist bs := by
  induction bs with
  | nil => exact List.Sublist.refl []
  | cons b bs ih => exact (List.filter_sublist.trans ih).cons_cons b

theorem mem_map_filter_ne {bs : List β} {k l : κ} (h : k ≠ l) :
    k ∈ (bs.filter (key · ≠ l)).map key ↔ k ∈ bs.map key := by
  simp only [List.mem_map, List.mem_filter, decide_eq_true_eq]
  constructor
  · rintro ⟨b, ⟨hb, -⟩, rfl⟩
    exact ⟨b, hb, rfl⟩
  · rintro ⟨b, hb, rfl⟩
    exact ⟨b, ⟨hb, h⟩, rfl⟩

/-- Every key has an entry. -/
theorem mem_map_firstBy {bs : List β} {k : κ} : k ∈ (firstBy key bs).map key ↔ k ∈ bs.map key := by
  induction bs with
  | nil => exact Iff.rfl
  | cons b bs ih =>
    rw [firstBy, List.map_cons, List.map_cons, List.mem_cons, List.mem_cons]
    by_cases hk : k = key b
    · simp [hk]
    · rw [mem_map_filter_ne hk, ih]

/-- No key has two. -/
theorem nodup_map_firstBy (bs : List β) : ((firstBy key bs).map key).Nodup := by
  induction bs with
  | nil => exact List.nodup_nil
  | cons b bs ih =>
    rw [firstBy, List.map_cons]
    refine List.nodup_cons.mpr ⟨?_, ih.sublist (List.filter_sublist.map key)⟩
    simp

/-- Where no key occurs twice, every entry is the first. -/
theorem firstBy_eq_self {bs : List β} (h : (bs.map key).Nodup) : firstBy key bs = bs := by
  induction bs with
  | nil => rfl
  | cons b bs ih =>
    obtain ⟨hb, hbs⟩ := List.nodup_cons.mp h
    rw [firstBy, ih hbs, List.filter_eq_self.mpr]
    intro b' hb'
    exact decide_eq_true fun heq ↦ hb (List.mem_map.mpr ⟨b', hb', heq⟩)

/-- The first entries of the other keys, and `b` behind them. -/
def firstByThen (key : β → κ) (bs : List β) (b : β) : List β :=
  (firstBy key bs).filter (key · ≠ key b) ++ [b]

theorem nodup_map_firstByThen (bs : List β) (b : β) : ((firstByThen key bs b).map key).Nodup := by
  rw [firstByThen, List.map_append, List.map_singleton, ← List.concat_eq_append]
  refine ((nodup_map_firstBy bs).sublist (List.filter_sublist.map key)).concat ?_
  simp

theorem mem_map_firstByThen {bs : List β} {b : β} {k : κ} :
    k ∈ (firstByThen key bs b).map key ↔ k = key b ∨ k ∈ bs.map key := by
  rw [firstByThen, List.map_append, List.map_singleton, List.mem_append, List.mem_singleton]
  by_cases hk : k = key b
  · simp [hk]
  · rw [mem_map_filter_ne hk, mem_map_firstBy, or_comm]

/-- Doing it again changes nothing. -/
theorem firstByThen_self (bs : List β) (b : β) :
    firstByThen key (firstByThen key bs b) b = firstByThen key bs b := by
  have hfilter : ∀ b' ∈ (firstBy key bs).filter (key · ≠ key b), decide (key b' ≠ key b) = true :=
    fun b' hb' ↦ (List.mem_filter.mp hb').2
  rw [firstByThen, firstBy_eq_self (nodup_map_firstByThen bs b), firstByThen, List.filter_append,
    List.filter_eq_self.mpr hfilter]
  simp

namespace LinkedMap

/-- **First values**: a value is entered when its key is new. -/
theorem entries_foldl_putIfAbsent (bs : List β) (m : LinkedMap κ β) :
    (bs.foldl (fun m b ↦ m.putIfAbsent (key b) b) m).entries =
      m.entries ++ ((firstBy key bs).filter fun b ↦ key b ∉ m.entries.map Prod.fst).map
        fun b ↦ (key b, b) := by
  induction bs generalizing m with
  | nil => simp [firstBy]
  | cons b bs ih =>
    rw [List.foldl_cons, ih, firstBy, putIfAbsent]
    split
    case isTrue hmem =>
      rw [List.filter_cons_of_neg (by simpa using hmem), List.filter_filter]
      congr 2
      refine List.filter_congr fun b' _ ↦ ?_
      -- an entry whose key is new has another key than `b`
      have hne : key b' ∉ m.entries.map Prod.fst → key b' ≠ key b := fun hnot heq ↦
        hnot (heq ▸ hmem)
      rw [Bool.eq_iff_iff, Bool.and_eq_true, decide_eq_true_iff, decide_eq_true_iff]
      exact ⟨fun hnot ↦ ⟨hnot, hne hnot⟩, And.left⟩
    case isFalse hnew =>
      have hkeys : (m.putNew (key b) b hnew).entries = m.entries ++ [(key b, b)] := rfl
      rw [hkeys, List.filter_cons_of_pos (by simpa using hnew), List.filter_filter, List.map_cons,
        List.append_assoc, List.singleton_append]
      congr 3
      refine List.filter_congr fun b' _ ↦ ?_
      rw [List.map_append, List.map_singleton, Bool.eq_iff_iff, Bool.and_eq_true]
      simp only [decide_eq_true_iff, List.mem_append, List.mem_singleton, not_or]

/-- First values, and one that is put behind them. -/
theorem values_put_remove_foldl (bs : List β) (b : β) :
    (((bs.foldl (fun m b ↦ m.putIfAbsent (key b) b) (empty : LinkedMap κ β)).remove (key b)).put
      (key b) b).values = firstByThen key bs b := by
  have hall : (firstBy key bs).filter (fun b ↦ key b ∉ ([] : List κ)) = firstBy key bs :=
    List.filter_eq_self.mpr fun _ _ ↦ decide_eq_true List.not_mem_nil
  have hentries : (bs.foldl (fun m b ↦ m.putIfAbsent (key b) b) (empty : LinkedMap κ β)).entries =
      (firstBy key bs).map fun b ↦ (key b, b) := by
    rw [entries_foldl_putIfAbsent, empty, List.nil_append]
    exact congrArg _ hall
  rw [values_put_remove, hentries, List.filter_map, List.map_map, firstByThen]
  exact congrArg (· ++ [b]) (List.map_id _)

end LinkedMap
