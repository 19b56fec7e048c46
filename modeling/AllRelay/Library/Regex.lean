import Mathlib.Data.List.Basic
import Mathlib.Data.List.Infix
import Mathlib.Data.List.TakeWhile

/-!
# Regular expressions that backtrack

A pattern is a sequence of items: a literal, a class of units repeated greedily, or one repeated
lazily. `matchHere` tries the items in order and goes back to the last choice when one of them
fails, longer repetitions first for a greedy one and shorter ones first for a lazy one. `findAll`
gives what the groups of the matches captured, from left to right.

`Misses p a rest` says that no match begins inside `a` where `rest` follows. With it a text is read
piece by piece: `findAll_of_misses` passes over a piece, and `findAll_of_match` takes a match. A
lazy item stops at the first place from which the rest of the pattern matches
(`matchHere_lazyStar_of_misses`).
-/

namespace Regex

/-- An item of a pattern. -/
inductive Item (α : Type*) where
  /-- These units. -/
  | literal (text : List α)
  /-- One unit of the class or more, as many as possible, in a group or not. -/
  | plus (capture : Bool) (cls : α → Bool)
  /-- Any number of units of the class, as few as possible. -/
  | lazyStar (cls : α → Bool)

/-- A pattern. -/
abbrev Pattern (α : Type*) := List (Item α)

/-- A match: what its groups captured, and the text behind it. -/
structure Match (α : Type*) where
  groups : List (List α)
  rest : List α

variable {α : Type*} [DecidableEq α]

/-- The first match, in the order of backtracking, that begins with the text. -/
def matchHere : Pattern α → List α → Option (Match α)
  | [], text => some ⟨[], text⟩
  | .literal l :: p, text => if l <+: text then matchHere p (text.drop l.length) else none
  | .plus capture cls :: p, text =>
    (List.range (text.takeWhile cls).length).reverse.findSome? fun i ↦
      (matchHere p (text.drop (i + 1))).map fun m ↦
        if capture then { m with groups := text.take (i + 1) :: m.groups } else m
  | .lazyStar cls :: p, text =>
    (List.range ((text.takeWhile cls).length + 1)).findSome? fun i ↦ matchHere p (text.drop i)

/-- The groups of the matches, where `skip` units still belong to the last match. -/
def findAll (p : Pattern α) : ℕ → List α → List (List (List α))
  | _, [] => []
  | skip + 1, _ :: text => findAll p skip text
  | 0, a :: text =>
    match matchHere p (a :: text) with
    | none => findAll p 0 text
    | some m => m.groups :: findAll p (text.length - m.rest.length) text

/-- No match begins inside `a`, where `rest` follows. -/
def Misses (p : Pattern α) : List α → List α → Prop
  | [], _ => True
  | c :: a, rest => matchHere p (c :: a ++ rest) = none ∧ Misses p a rest

/-- The key and what follows the beginning of a text never agree, whatever follows the text. -/
def Clear (key : List α) : List α → Prop
  | [] => True
  | c :: a => ¬key <+: c :: a ∧ ¬c :: a <+: key ∧ Clear key a

instance decidableClear (key : List α) : ∀ a, Decidable (Clear key a)
  | [] => .isTrue trivial
  | c :: a =>
    have := decidableClear key a
    inferInstanceAs (Decidable (¬key <+: c :: a ∧ ¬c :: a <+: key ∧ Clear key a))

/-- No match begins anywhere in the text. -/
def Dead (p : Pattern α) (text : List α) : Prop :=
  ∀ v, v <:+ text → matchHere p v = none

variable {p q : Pattern α} {item : Item α} {cls : α → Bool} {capture : Bool} {c d : α}
  {a b key run gap line stop rest text v : List α} {m : Match α}

/-! ### Finding -/

theorem findAll_skip (p : Pattern α) (a rest : List α) :
    findAll p a.length (a ++ rest) = findAll p 0 rest := by
  induction a with
  | nil => rfl
  | cons c a ih => exact ih

/-- **A piece** without a match is passed over. -/
theorem findAll_of_misses (h : Misses p a rest) : findAll p 0 (a ++ rest) = findAll p 0 rest := by
  induction a with
  | nil => rfl
  | cons c a ih =>
    obtain ⟨hnone, h⟩ := h
    rw [List.cons_append] at hnone
    rw [List.cons_append, findAll, hnone]
    exact ih h

/-- **A match** is taken, and the search goes on behind it. -/
theorem findAll_of_match {groups : List (List α)} (hne : a ≠ [])
    (h : matchHere p (a ++ rest) = some ⟨groups, rest⟩) :
    findAll p 0 (a ++ rest) = groups :: findAll p 0 rest := by
  obtain ⟨c, a, rfl⟩ := List.exists_cons_of_ne_nil hne
  rw [List.cons_append] at h
  rw [List.cons_append, findAll, h]
  show groups :: findAll p ((a ++ rest).length - rest.length) (a ++ rest) = _
  rw [List.length_append, Nat.add_sub_cancel, findAll_skip]

theorem Dead.findAll_eq_nil (h : Dead p text) : findAll p 0 text = [] := by
  induction text with
  | nil => rfl
  | cons c text ih =>
    rw [findAll, h _ List.suffix_rfl]
    exact ih fun v hv ↦ h v (hv.trans (List.suffix_cons c text))

/-- Every group that is found is of a match. -/
theorem exists_match_of_mem_findAll {groups : List (List α)} {skip : ℕ}
    (h : groups ∈ findAll p skip text) : ∃ v m, matchHere p v = some m ∧ m.groups = groups := by
  induction text generalizing skip with
  | nil => cases h
  | cons c text ih =>
    cases skip with
    | succ skip => exact ih h
    | zero =>
      rw [findAll] at h
      cases hm : matchHere p (c :: text) with
      | none =>
        rw [hm] at h
        exact ih h
      | some m =>
        rw [hm] at h
        obtain rfl | h := List.mem_cons.1 h
        · exact ⟨_, m, hm, rfl⟩
        · exact ih h

/-! ### Pieces without a match -/

theorem Misses.append (ha : Misses p a (b ++ rest)) (hb : Misses p b rest) :
    Misses p (a ++ b) rest := by
  induction a with
  | nil => exact hb
  | cons c a ih =>
    obtain ⟨hnone, ha⟩ := ha
    refine ⟨?_, ih ha⟩
    rwa [← List.append_assoc] at hnone

theorem Misses.suffix (h : Misses p a rest) (hv : v <:+ a) : Misses p v rest := by
  induction a with
  | nil =>
    rw [List.suffix_nil.1 hv]
    trivial
  | cons c a ih =>
    obtain rfl | hv := List.suffix_cons_iff.1 hv
    · exact h
    · exact ih h.2 hv

/-- A text is dead if no match begins inside it or at its end. -/
theorem Misses.dead (h : Misses p a []) (hnil : matchHere p [] = none) : Dead p a := by
  intro v hv
  have hmiss := h.suffix hv
  cases v with
  | nil => exact hnil
  | cons c v =>
    have hnone := hmiss.1
    rwa [List.append_nil] at hnone

theorem matchHere_literal (l rest : List α) :
    matchHere (.literal l :: p) (l ++ rest) = matchHere p rest := by
  rw [matchHere, if_pos (List.prefix_append l rest), List.drop_left]

theorem matchHere_literal_none (h : ¬key <+: text) : matchHere (.literal key :: p) text = none := by
  rw [matchHere, if_neg h]

/-- A literal in two parts. -/
theorem matchHere_literal_append (a b text : List α) :
    matchHere (.literal (a ++ b) :: p) text = matchHere (.literal a :: .literal b :: p) text := by
  by_cases ha : a <+: text
  · obtain ⟨rest, rfl⟩ := ha
    rw [matchHere_literal]
    by_cases hb : b <+: rest
    · obtain ⟨rest, rfl⟩ := hb
      rw [matchHere_literal, ← List.append_assoc, matchHere_literal]
    · rw [matchHere_literal_none hb,
        matchHere_literal_none (mt (List.prefix_append_right_inj a).1 hb)]
  · rw [matchHere_literal_none ha,
      matchHere_literal_none fun h ↦ ha ((List.prefix_append a b).trans h)]

/-- A literal does not begin in a text without its first unit. -/
theorem Misses.of_not_mem (h : c ∉ a) (key rest : List α) :
    Misses (.literal (c :: key) :: p) a rest := by
  induction a with
  | nil => trivial
  | cons d a ih =>
    obtain ⟨hne, h⟩ := not_or.1 (mt List.mem_cons.2 h)
    refine ⟨matchHere_literal_none fun hpre ↦ ?_, ih h⟩
    exact hne (List.cons_prefix_cons.1 hpre).1

theorem Misses.of_clear (h : Clear key a) (rest : List α) : Misses (.literal key :: p) a rest := by
  induction a with
  | nil => trivial
  | cons c a ih =>
    obtain ⟨hkey, hlong, h⟩ := h
    refine ⟨matchHere_literal_none fun hpre ↦ ?_, ih h⟩
    obtain hpre | hpre := List.prefix_or_prefix_of_prefix hpre (List.prefix_append (c :: a) rest)
    · exact hkey hpre
    · exact hlong hpre

/-- A literal does not begin in a text that does not contain it, where a unit follows that it does
not contain. -/
theorem Misses.of_mark (h : ¬key <:+: a) (hd : d ∉ key) (rest : List α) :
    Misses (.literal key :: p) a (d :: rest) := by
  induction a with
  | nil => trivial
  | cons c a ih =>
    refine ⟨matchHere_literal_none fun hpre ↦ ?_, ih fun hin ↦ ?_⟩
    · obtain hlt | hle := Nat.lt_or_ge (c :: a).length key.length
      · have hmark : c :: a ++ [d] <+: key := by
          have hone : c :: a ++ [d] <+: c :: a ++ d :: rest :=
            ⟨rest, by rw [List.append_assoc]; rfl⟩
          refine List.prefix_of_prefix_length_le hone hpre ?_
          rw [List.length_append]
          exact hlt
        exact hd (hmark.subset (List.mem_append_right _ (List.mem_singleton_self d)))
      · exact h (List.prefix_of_prefix_length_le hpre (List.prefix_append _ _) hle).isInfix
    · exact h (hin.trans (List.suffix_cons c a).isInfix)

/-- A literal does not begin in a text that does not contain it, where nothing follows. -/
theorem Misses.of_not_occurs (h : ¬key <:+: a) : Misses (.literal key :: p) a [] := by
  induction a with
  | nil => trivial
  | cons c a ih =>
    refine ⟨matchHere_literal_none fun hpre ↦ ?_, ih fun hin ↦ ?_⟩
    · rw [List.append_nil] at hpre
      exact h hpre.isInfix
    · exact h (hin.trans (List.suffix_cons c a).isInfix)

/-! ### Repetitions -/

theorem matchHere_lazyStar_nil : matchHere (.lazyStar cls :: p) [] = matchHere p [] := by
  rw [matchHere]
  show [0].findSome? _ = _
  rw [List.findSome?_singleton, List.drop_nil]

theorem matchHere_lazyStar_cons (hc : cls c = true) (text : List α) :
    matchHere (.lazyStar cls :: p) (c :: text) =
      (matchHere p (c :: text)).or (matchHere (.lazyStar cls :: p) text) := by
  rw [matchHere, List.takeWhile_cons_of_pos hc, List.length_cons, List.range_succ_eq_map,
    List.findSome?_cons, List.findSome?_map, matchHere, List.drop_zero]
  cases matchHere p (c :: text) <;> rfl

theorem matchHere_lazyStar_of_neg (hc : cls c = false) (text : List α) :
    matchHere (.lazyStar cls :: p) (c :: text) = matchHere p (c :: text) := by
  rw [matchHere, List.takeWhile_cons_of_neg (by simp [hc])]
  show [0].findSome? _ = _
  rw [List.findSome?_singleton, List.drop_zero]

/-- **A lazy item** stops at the first place from which the rest of the pattern matches. -/
theorem matchHere_lazyStar_of_misses (hcls : ∀ c ∈ gap, cls c = true) (hgap : Misses p gap rest)
    (h : matchHere p rest = some m) : matchHere (.lazyStar cls :: p) (gap ++ rest) = some m := by
  induction gap with
  | nil =>
    cases rest with
    | nil => rw [List.nil_append, matchHere_lazyStar_nil, h]
    | cons c rest =>
      rw [List.nil_append]
      cases hc : cls c with
      | false => rw [matchHere_lazyStar_of_neg hc, h]
      | true => rw [matchHere_lazyStar_cons hc, h, Option.some_or]
  | cons c gap ih =>
    obtain ⟨hc, hcls⟩ := List.forall_mem_cons.1 hcls
    obtain ⟨hnone, hgap⟩ := hgap
    rw [List.cons_append] at hnone
    rw [List.cons_append, matchHere_lazyStar_cons hc, hnone, Option.none_or]
    exact ih hcls hgap

/-- A lazy item fails if the rest of the pattern matches nowhere up to the end of its class. -/
theorem matchHere_lazyStar_none (hcls : ∀ c ∈ line, cls c = true) (hline : Misses p line stop)
    (hstop : ∀ c ∈ stop.head?, cls c = false) (h : matchHere p stop = none) :
    matchHere (.lazyStar cls :: p) (line ++ stop) = none := by
  induction line with
  | nil =>
    cases stop with
    | nil => rw [List.nil_append, matchHere_lazyStar_nil, h]
    | cons c stop => rw [List.nil_append, matchHere_lazyStar_of_neg (hstop c rfl), h]
  | cons c line ih =>
    obtain ⟨hc, hcls⟩ := List.forall_mem_cons.1 hcls
    obtain ⟨hnone, hline⟩ := hline
    rw [List.cons_append] at hnone
    rw [List.cons_append, matchHere_lazyStar_cons hc, hnone, Option.none_or]
    exact ih hcls hline

omit [DecidableEq α] in
/-- What a repetition reaches. -/
theorem takeWhile_append_of_head (hrun : ∀ c ∈ run, cls c = true)
    (hstop : ∀ c ∈ stop.head?, cls c = false) : (run ++ stop).takeWhile cls = run := by
  have hnil : stop.takeWhile cls = [] := by
    cases stop with
    | nil => rfl
    | cons c stop => exact List.takeWhile_cons_of_neg (by simp [hstop c rfl])
  rw [List.takeWhile_append_of_pos hrun, hnil, List.append_nil]

/-- **A greedy item** takes the whole run if the rest of the pattern matches behind it. -/
theorem matchHere_plus_of_run (hne : run ≠ []) (hrun : ∀ c ∈ run, cls c = true)
    (hstop : ∀ c ∈ stop.head?, cls c = false) (h : matchHere p stop = some m) :
    matchHere (.plus capture cls :: p) (run ++ stop) =
      some (if capture then { m with groups := run :: m.groups } else m) := by
  obtain ⟨n, hn⟩ := Nat.exists_eq_succ_of_ne_zero (mt List.length_eq_zero_iff.1 hne)
  have hlen : n + 1 = run.length := hn.symm
  rw [matchHere, takeWhile_append_of_head hrun hstop, hn, List.range_succ, List.reverse_append,
    List.reverse_singleton, List.singleton_append, List.findSome?_cons, hlen, List.drop_left, h,
    List.take_left]
  rfl

/-- A greedy item needs one unit. -/
theorem matchHere_plus_of_head (hstop : ∀ c ∈ stop.head?, cls c = false) :
    matchHere (.plus capture cls :: p) stop = none := by
  have hnil : ([] ++ stop).takeWhile cls = [] :=
    takeWhile_append_of_head (List.forall_mem_nil _) hstop
  rw [List.nil_append] at hnil
  rw [matchHere, hnil]
  rfl

/-- A greedy item fails if the rest of the pattern matches nowhere in the run or behind it. -/
theorem matchHere_plus_none (hrun : ∀ c ∈ run, cls c = true)
    (hstop : ∀ c ∈ stop.head?, cls c = false)
    (h : ∀ v, v <:+ run → matchHere p (v ++ stop) = none) :
    matchHere (.plus capture cls :: p) (run ++ stop) = none := by
  rw [matchHere, takeWhile_append_of_head hrun hstop, List.findSome?_eq_none_iff]
  intro i hi
  have hlt : i < run.length := List.mem_range.1 (List.mem_reverse.1 hi)
  rw [List.drop_append_of_le_length hlt, h _ (List.drop_suffix _ _)]
  rfl

/-- What a group captures. -/
theorem groups_plus (h : matchHere (.plus true cls :: p) text = some m) :
    ∃ g gs, m.groups = g :: gs ∧ g ≠ [] ∧ ∀ c ∈ g, cls c = true := by
  rw [matchHere] at h
  obtain ⟨i, hi, h⟩ := List.exists_of_findSome?_eq_some h
  have hlt : i < (text.takeWhile cls).length := List.mem_range.1 (List.mem_reverse.1 hi)
  obtain ⟨m', -, rfl⟩ := Option.map_eq_some_iff.1 h
  have hpre : text.take (i + 1) <+: text.takeWhile cls := by
    refine List.prefix_of_prefix_length_le (List.take_prefix _ _) (List.takeWhile_prefix _) ?_
    rw [List.length_take]
    omega
  refine ⟨text.take (i + 1), m'.groups, rfl, ?_, fun c hc ↦ ?_⟩
  · intro hnil
    have hlen := congrArg List.length hnil
    have hle := (List.takeWhile_prefix cls (l := text)).length_le
    rw [List.length_take, List.length_nil] at hlen
    omega
  · exact List.mem_takeWhile_imp (hpre.subset hc)

/-! ### Dead texts -/

/-- A pattern matches nowhere if its end does not. -/
theorem Dead.cons (h : Dead p text) (item : Item α) : Dead (item :: p) text := by
  intro v hv
  have hdrop : ∀ i, matchHere p (v.drop i) = none := fun i ↦
    h _ ((List.drop_suffix i v).trans hv)
  cases item with
  | literal l =>
    rw [matchHere, hdrop]
    exact ite_self none
  | plus capture cls =>
    rw [matchHere, List.findSome?_eq_none_iff]
    intro i _
    rw [hdrop]
    rfl
  | lazyStar cls =>
    rw [matchHere, List.findSome?_eq_none_iff]
    exact fun i _ ↦ hdrop i

end Regex
