import Mathlib.Data.Option.Basic
import Mathlib.Tactic.TypeStar

/-!
# Machines in lockstep

A machine answers calls: `σ → ι → Option (σ × ω)` is its state and its answer after a call, or
nothing if the call fails. `Lockstep.answers` is what it answers to a sequence of calls, and fails
with the first call that fails.

Two machines whose answers agree call by call, in related states, give the same answers to every
sequence of calls and fail at the same place (`answers_rel`): one of them may stand for the other.
-/

namespace Lockstep

variable {σ τ ι ω : Type*}

/-- The state after some calls, and the answers to them. -/
def answers (call : σ → ι → Option (σ × ω)) : σ → List ι → Option (σ × List ω)
  | s, [] => some (s, [])
  | s, i :: is => (call s i).bind fun x ↦ (answers call x.1 is).map fun y ↦ (y.1, x.2 :: y.2)

/-- The outcomes of a call agree: both fail, or the answers are the same and the states related. -/
def Agrees (R : σ → τ → Prop) : Option (σ × ω) → Option (τ × ω) → Prop :=
  Option.Rel fun x y ↦ R x.1 y.1 ∧ x.2 = y.2

variable {R : σ → τ → Prop} {call : σ → ι → Option (σ × ω)} {call' : τ → ι → Option (τ × ω)}

@[simp]
theorem answers_nil (s : σ) : answers call s [] = some (s, []) :=
  rfl

theorem agrees_none : Agrees R (none : Option (σ × ω)) none :=
  .none

theorem agrees_some {s : σ} {t : τ} {o : ω} (h : R s t) : Agrees R (some (s, o)) (some (t, o)) :=
  .some ⟨h, rfl⟩

/-- A machine whose outcome agrees with an answer gives this answer. -/
theorem Agrees.exists_eq_some {s : σ} {o : ω} {y : Option (τ × ω)} (h : Agrees R (some (s, o)) y) :
    ∃ t, y = some (t, o) ∧ R s t := by
  cases h with
  | @some x y hxy =>
    obtain ⟨t, o'⟩ := y
    obtain ⟨hR, ho⟩ := hxy
    obtain rfl : o = o' := ho
    exact ⟨t, rfl, hR⟩

/-- **The rule of lockstep**: machines that agree call by call agree on every sequence of calls. -/
theorem answers_rel (hcall : ∀ s t i, R s t → Agrees R (call s i) (call' t i)) {s : σ} {t : τ}
    (h : R s t) (is : List ι) : Agrees R (answers call s is) (answers call' t is) := by
  induction is generalizing s t with
  | nil => exact agrees_some h
  | cons i is ih =>
    rw [answers, answers]
    have hi := hcall s t i h
    generalize call s i = x at hi ⊢
    generalize call' t i = y at hi ⊢
    cases hi with
    | none => exact agrees_none
    | @some x y hxy =>
      obtain ⟨s', o⟩ := x
      obtain ⟨t', o'⟩ := y
      obtain ⟨hR, ho⟩ := hxy
      obtain rfl : o = o' := ho
      rw [Option.bind_some, Option.bind_some]
      have his := ih hR
      generalize answers call s' is = u at his ⊢
      generalize answers call' t' is = v at his ⊢
      cases his with
      | none => exact agrees_none
      | @some u v huv => exact .some ⟨huv.1, congrArg (o :: ·) huv.2⟩

end Lockstep
