import Mathlib.Data.List.Induction
import Mathlib.Tactic.SplitIfs
import AllRelay.Library.LabelledSystem

/-!
# Two paths into one log

Items of two kinds travel on two paths to the same place. Each path keeps the order of its items,
and nothing relates the paths: at any time the next item of either path may arrive. `out` is the log
of what has arrived.

* Nothing is lost and nothing overtakes on its own path (`lefts_exec`, `rights_exec`).
* `late` counts the right items that arrive after the left items that were sent so far. A run makes
  the last `n` right items arrive behind all left items exactly when none of these `n` items arrives
  while a left item is on its way (`le_late_popRight`).
-/

open LabelledSystem

namespace TwoPaths

variable {α β : Type*}

/-- What is on its way on either path, next to arrive first, and what has arrived. -/
structure Paths (α β : Type*) where
  left : List α
  right : List β
  out : List (α ⊕ β)

/-- A move. -/
inductive Move (α β : Type*) where
  /-- A left item is sent. -/
  | pushLeft (a : α)
  /-- A right item is sent. -/
  | pushRight (b : β)
  /-- The next left item arrives. -/
  | popLeft
  /-- The next right item arrives. -/
  | popRight

/-- One move. -/
def step (p : Paths α β) : Move α β → Option (Paths α β)
  | .pushLeft a => some { p with left := p.left ++ [a] }
  | .pushRight b => some { p with right := p.right ++ [b] }
  | .popLeft =>
    match p.left with
    | [] => none
    | a :: left => some { p with left, out := p.out ++ [.inl a] }
  | .popRight =>
    match p.right with
    | [] => none
    | b :: right => some { p with right, out := p.out ++ [.inr b] }

/-- The left items of a log. -/
def lefts (out : List (α ⊕ β)) : List α :=
  out.filterMap Sum.getLeft?

/-- The right items of a log. -/
def rights (out : List (α ⊕ β)) : List β :=
  out.filterMap Sum.getRight?

/-- The left item that a move sends. -/
def Move.sentLeft : Move α β → Option α
  | .pushLeft a => some a
  | _ => none

/-- The right item that a move sends. -/
def Move.sentRight : Move α β → Option β
  | .pushRight b => some b
  | _ => none

variable {p q : Paths α β} {m : Move α β}

/-! ### Nothing is lost -/

@[simp]
theorem lefts_append (l l' : List (α ⊕ β)) : lefts (l ++ l') = lefts l ++ lefts l' :=
  List.filterMap_append

@[simp]
theorem rights_append (l l' : List (α ⊕ β)) : rights (l ++ l') = rights l ++ rights l' :=
  List.filterMap_append

@[simp]
theorem lefts_map_inr (l : List β) : lefts (l.map (.inr : β → α ⊕ β)) = [] := by
  induction l with
  | nil => rfl
  | cons b l ih => exact ih

@[simp]
theorem rights_map_inr (l : List β) : rights (l.map (.inr : β → α ⊕ β)) = l := by
  induction l with
  | nil => rfl
  | cons b l ih => exact congrArg (b :: ·) ih

theorem lefts_step (h : step p m = some q) :
    lefts q.out ++ q.left = lefts p.out ++ p.left ++ m.sentLeft.toList := by
  cases m with
  | pushLeft a =>
    cases h
    exact (List.append_assoc ..).symm
  | pushRight b =>
    cases h
    exact (List.append_nil _).symm
  | popLeft =>
    simp only [step] at h
    split at h <;> cases h
    rename_i a left hleft
    simp [hleft, lefts, Move.sentLeft]
  | popRight =>
    simp only [step] at h
    split at h <;> cases h
    simp [lefts, Move.sentLeft]

theorem rights_step (h : step p m = some q) :
    rights q.out ++ q.right = rights p.out ++ p.right ++ m.sentRight.toList := by
  cases m with
  | pushLeft a =>
    cases h
    exact (List.append_nil _).symm
  | pushRight b =>
    cases h
    exact (List.append_assoc ..).symm
  | popLeft =>
    simp only [step] at h
    split at h <;> cases h
    simp [rights, Move.sentRight]
  | popRight =>
    simp only [step] at h
    split at h <;> cases h
    rename_i b right hright
    simp [hright, rights, Move.sentRight]

/-- **The left path** delivers what was sent on it, in order. -/
theorem lefts_exec {ms : List (Move α β)} (h : exec step p ms = some q) :
    lefts q.out ++ q.left = lefts p.out ++ p.left ++ ms.filterMap Move.sentLeft := by
  induction ms generalizing p with
  | nil =>
    cases h
    exact (List.append_nil _).symm
  | cons m ms ih =>
    obtain ⟨r, hr, hq⟩ := exec_cons_eq_some_iff.1 h
    rw [ih hq, lefts_step hr, List.filterMap_cons]
    cases m.sentLeft <;> simp

/-- **The right path** delivers what was sent on it, in order. -/
theorem rights_exec {ms : List (Move α β)} (h : exec step p ms = some q) :
    rights q.out ++ q.right = rights p.out ++ p.right ++ ms.filterMap Move.sentRight := by
  induction ms generalizing p with
  | nil =>
    cases h
    exact (List.append_nil _).symm
  | cons m ms ih =>
    obtain ⟨r, hr, hq⟩ := exec_cons_eq_some_iff.1 h
    rw [ih hq, rights_step hr, List.filterMap_cons]
    cases m.sentRight <;> simp

/-! ### What arrives behind the left items -/

/-- The right items behind the last left item, after one more item. -/
def push (l : List β) (item : α ⊕ β) : List β :=
  item.elim (fun _ ↦ []) fun b ↦ l ++ [b]

/-- The right items behind the last left item of a log. -/
def sinceLeft (out : List (α ⊕ β)) : List β :=
  out.foldl push []

@[simp]
theorem sinceLeft_concat_inl (out : List (α ⊕ β)) (a : α) : sinceLeft (out ++ [.inl a]) = [] := by
  simp [sinceLeft, push]

@[simp]
theorem sinceLeft_concat_inr (out : List (α ⊕ β)) (b : β) :
    sinceLeft (out ++ [.inr b]) = sinceLeft out ++ [b] := by
  simp [sinceLeft, push]

/-- A log ends with its last left item and the right items behind it. -/
theorem eq_append_sinceLeft {out : List (α ⊕ β)} {l : List α} {a : α}
    (h : lefts out = l ++ [a]) : ∃ before, out = before ++ .inl a :: (sinceLeft out).map .inr := by
  induction out using List.reverseRecOn generalizing l a with
  | nil => exact absurd h (List.append_ne_nil_of_right_ne_nil l (List.cons_ne_nil a [])).symm
  | append_singleton out item ih =>
    rw [lefts_append] at h
    rcases item with a' | b
    · obtain ⟨-, h⟩ := List.append_inj' h rfl
      cases h
      exact ⟨out, by rw [sinceLeft_concat_inl]; rfl⟩
    · obtain ⟨before, hbefore⟩ := ih ((List.append_nil _).symm.trans h)
      refine ⟨before, ?_⟩
      rw [sinceLeft_concat_inr, List.map_append]
      nth_rewrite 1 [hbefore]
      simp

/-- Right items behind a left item are right items behind the last one. -/
theorem sinceLeft_append_cons (before : List (α ⊕ β)) (a : α) (l : List β) :
    sinceLeft (before ++ .inl a :: l.map .inr) = l := by
  induction l using List.reverseRecOn with
  | nil => exact sinceLeft_concat_inl before a
  | append_singleton l b ih =>
    rw [List.map_append, ← List.cons_append, ← List.append_assoc]
    exact (sinceLeft_concat_inr ..).trans (congrArg (· ++ [b]) ih)

/-- **The last right items** of a log are behind its last left item exactly when at least as many
items are. -/
theorem length_le_sinceLeft_iff {out : List (α ⊕ β)} {l : List α} {a : α} {r r' : List β}
    (hleft : lefts out = l ++ [a]) (hright : rights out = r ++ r') :
    r'.length ≤ (sinceLeft out).length ↔
      ∃ before old, out = before ++ .inl a :: (old ++ r').map .inr := by
  constructor
  · intro hlength
    obtain ⟨before, hbefore⟩ := eq_append_sinceLeft hleft
    have hsince : sinceLeft out <:+ rights out := by
      refine ⟨rights before, ?_⟩
      nth_rewrite 2 [hbefore]
      rw [rights_append]
      exact congrArg (rights before ++ ·) (@rights_map_inr α _ (sinceLeft out)).symm
    have hsuffix : r' <:+ rights out := ⟨r, hright.symm⟩
    obtain ⟨old, hold⟩ := List.suffix_of_suffix_length_le hsuffix hsince hlength
    exact ⟨before, old, by rwa [hold]⟩
  · rintro ⟨before, old, rfl⟩
    rw [sinceLeft_append_cons, List.length_append]
    exact Nat.le_add_left ..

/-- The right items that arrive behind all left items that were sent so far. -/
def late (p : Paths α β) : ℕ :=
  (if p.left = [] then (sinceLeft p.out).length else 0) + p.right.length

/-- A left item arrives: it was on its way before the right items that still are. -/
theorem late_popLeft (h : step p .popLeft = some q) : late q = late p := by
  simp only [step] at h
  split at h <;> cases h
  rename_i a left hleft
  simp only [late, hleft, sinceLeft_concat_inl, List.length_nil, ite_self,
    if_neg (List.cons_ne_nil a left)]

theorem late_pushRight (b : β) (h : step p (.pushRight b) = some q) : late q = late p + 1 := by
  cases h
  simp only [late, List.length_append, List.length_singleton, Nat.add_assoc]

/-- **A right item arrives**: the last `n` right items are behind all left items, exactly when they
were and this item is not one of them or no left item is on its way. -/
theorem le_late_popRight (n : ℕ) (h : step p .popRight = some q) :
    n ≤ late q ↔ n ≤ late p ∧ (q.right.length < n → p.left = []) := by
  simp only [step] at h
  split at h <;> cases h
  rename_i b right hright
  simp only [late, hright, sinceLeft_concat_inr, List.length_append, List.length_cons,
    List.length_nil]
  split
  · rename_i hleft
    simp only [hleft, implies_true, and_true]
    omega
  · rename_i hleft
    simp only [hleft, imp_false]
    omega

end TwoPaths
