import Mathlib.Computability.Language

/-!
# Bracketed streams

Streams of the form `(opening middle* closing)*`, and what a consumer that reads such a stream from
left to right knows: whether the brackets read so far are closed, open, or broken beyond repair.
`phase` decides the language and its prefixes.
-/

namespace Bracketed

open scoped Computability

/-- What an element of the stream does. -/
inductive Mark where
  | opening
  | middle
  | closing
deriving DecidableEq, Repr

open Mark

/-- `(opening middle* closing)*`. -/
def bracketed : Language Mark :=
  ({[opening]} * ({[middle]} : Language Mark)∗ * {[closing]})∗

/-- What has been read. -/
inductive Phase where
  /-- A word of the language. -/
  | closed
  /-- A word of the language and the beginning of one more bracket. -/
  | opened
  /-- Nothing that the language continues. -/
  | broken
deriving DecidableEq, Repr

/-- One more element is read. -/
def advance : Phase → Mark → Phase
  | .closed, .opening => .opened
  | .opened, .middle => .opened
  | .opened, .closing => .closed
  | _, _ => .broken

/-- The phase of a stream. -/
def phase (w : List Mark) : Phase :=
  w.foldl advance .closed

@[simp]
theorem phase_nil : phase [] = .closed :=
  rfl

@[simp]
theorem phase_concat (w : List Mark) (m : Mark) : phase (w ++ [m]) = advance (phase w) m := by
  rw [phase, List.foldl_append]
  rfl

theorem foldl_broken (w : List Mark) : w.foldl advance .broken = .broken := by
  induction w with
  | nil => rfl
  | cons m w ih => exact ih

/-- A prefix of an unbroken stream is unbroken. -/
theorem phase_ne_broken_of_isPrefix {v w : List Mark} (h : v <+: w) (hw : phase w ≠ .broken) :
    phase v ≠ .broken := by
  obtain ⟨u, rfl⟩ := h
  intro hv
  rw [phase, List.foldl_append] at hw
  exact hw ((congrArg (u.foldl advance) hv).trans (foldl_broken u))

theorem foldl_middle (n : ℕ) : (List.replicate n middle).foldl advance .opened = .opened := by
  induction n with
  | zero => rfl
  | succ n ih => exact ih

/-- The words of one bracket. -/
theorem mem_bracket_iff {w : List Mark} :
    w ∈ ({[opening]} * ({[middle]} : Language Mark)∗ * {[closing]} : Language Mark) ↔
      ∃ n, w = opening :: List.replicate n middle ++ [closing] := by
  have hmiddle (v : List Mark) :
      v ∈ ({[middle]} : Language Mark)∗ ↔ ∃ n, v = List.replicate n middle := by
    rw [Language.mem_kstar]
    constructor
    · rintro ⟨L, rfl, hL⟩
      have hL' : L = List.replicate L.length [middle] :=
        List.eq_replicate_of_mem fun y hy ↦ hL y hy
      refine ⟨L.length, ?_⟩
      rw [hL', List.length_replicate]
      exact List.flatten_replicate_singleton
    · rintro ⟨n, rfl⟩
      exact ⟨List.replicate n [middle], List.flatten_replicate_singleton.symm,
        fun y hy ↦ (List.mem_replicate.1 hy).2⟩
  rw [Language.mem_mul]
  constructor
  · rintro ⟨u, hu, c, rfl, rfl⟩
    obtain ⟨o, rfl, v, hv, rfl⟩ := Language.mem_mul.1 hu
    obtain ⟨n, rfl⟩ := (hmiddle v).1 hv
    exact ⟨n, rfl⟩
  · rintro ⟨n, rfl⟩
    exact ⟨_, Language.mem_mul.2 ⟨_, rfl, _, (hmiddle _).2 ⟨n, rfl⟩, rfl⟩, _, rfl, rfl⟩

theorem phase_of_mem {w : List Mark} (h : w ∈ bracketed) : phase w = .closed := by
  obtain ⟨L, rfl, hL⟩ := Language.mem_kstar.1 h
  clear h
  induction L with
  | nil => rfl
  | cons v L ih =>
    obtain ⟨n, rfl⟩ := mem_bracket_iff.1 (hL v List.mem_cons_self)
    have hv :
        (opening :: List.replicate n middle ++ [closing]).foldl advance .closed = .closed := by
      rw [List.foldl_append]
      exact congrArg (advance · closing) (foldl_middle n)
    rw [List.flatten_cons, phase, List.foldl_append, hv]
    exact ih fun y hy ↦ hL y (List.mem_cons_of_mem _ hy)

/-- What an unbroken stream looks like. -/
theorem phase_spec (w : List Mark) :
    (phase w = .closed → w ∈ bracketed) ∧
      (phase w = .opened → ∃ v ∈ bracketed, ∃ n, w = v ++ opening :: List.replicate n middle) := by
  induction w using List.reverseRecOn with
  | nil =>
    refine ⟨fun _ ↦ Language.nil_mem_kstar _, fun h ↦ ?_⟩
    cases h
  | append_singleton w m ih =>
    obtain ⟨hclosed, hopened⟩ := ih
    rw [phase_concat]
    rcases hw : phase w with _ | _ | _ <;> rcases m with _ | _ | _
    case closed.opening =>
      exact ⟨(fun h ↦ by cases h), fun _ ↦ ⟨w, hclosed hw, 0, rfl⟩⟩
    case opened.middle =>
      obtain ⟨v, hv, n, rfl⟩ := hopened hw
      refine ⟨(fun h ↦ by cases h), fun _ ↦ ⟨v, hv, n + 1, ?_⟩⟩
      rw [List.append_assoc, List.cons_append, ← List.replicate_succ']
    case opened.closing =>
      obtain ⟨v, hv, n, rfl⟩ := hopened hw
      refine ⟨fun _ ↦ ?_, (fun h ↦ by cases h)⟩
      -- The closed bracket is one more factor of the word.
      obtain ⟨L, rfl, hL⟩ := Language.mem_kstar.1 hv
      refine Language.mem_kstar.2 ⟨L ++ [opening :: List.replicate n middle ++ [closing]], ?_, ?_⟩
      · simp
      · intro y hy
        rcases List.mem_append.1 hy with hy | hy
        · exact hL y hy
        · exact mem_bracket_iff.2 ⟨n, List.mem_singleton.1 hy⟩
    all_goals exact ⟨(fun h ↦ by cases h), (fun h ↦ by cases h)⟩

/-- **The phase decides the language.** -/
theorem mem_bracketed_iff {w : List Mark} : w ∈ bracketed ↔ phase w = .closed :=
  ⟨phase_of_mem, (phase_spec w).1⟩

/-- **The phase decides its prefixes.** -/
theorem exists_mem_bracketed_iff {w : List Mark} :
    (∃ v ∈ bracketed, w <+: v) ↔ phase w ≠ .broken := by
  constructor
  · rintro ⟨v, hv, hw⟩
    refine phase_ne_broken_of_isPrefix hw fun h ↦ ?_
    rw [phase_of_mem hv] at h
    cases h
  · intro h
    rcases hw : phase w with _ | _ | _
    · exact ⟨w, mem_bracketed_iff.2 hw, List.prefix_rfl⟩
    · refine ⟨w ++ [closing], mem_bracketed_iff.2 ?_, ⟨_, rfl⟩⟩
      rw [phase_concat, hw]
      rfl
    · exact absurd hw h

end Bracketed
