import Mathlib.Data.Nat.Notation
import Mathlib.Tactic.TypeStar

/-!
# Delayed writes

A copy of a value that is kept elsewhere, by writers who take the value at one time and write it at
another. Versions count the changes of the value. If no write overtakes another (`Converges.write`),
the copy is current, or a write of the current value is still to come: when no write is pending, the
copy agrees with the value.
-/

namespace DelayedWrite

variable {α : Type*}

/-- A value with its version. -/
structure Cell (α : Type*) where
  value : α
  version : ℕ
deriving DecidableEq, Repr

/-- The copy is current, or a write of the current value is pending. -/
def Converges (source copy : Cell α) (pending : Cell α → Prop) : Prop :=
  copy = source ∨ pending source

/-- A value that was taken from the source, now or earlier. -/
structure Taken (source w : Cell α) : Prop where
  le : w.version ≤ source.version
  eq : w.version = source.version → w = source

variable {source copy w : Cell α} {pending pending' : Cell α → Prop}

theorem Taken.refl (source : Cell α) : Taken source source :=
  ⟨Nat.le_refl _, fun _ ↦ rfl⟩

/-- A change of the value makes everything that was taken from it old. -/
theorem Taken.change {source' : Cell α} (h : Taken source w)
    (hlt : source.version < source'.version) : Taken source' w where
  le := Nat.le_of_lt (Nat.lt_of_le_of_lt h.le hlt)
  eq heq := absurd (heq ▸ hlt) (Nat.not_lt_of_le h.le)

theorem Converges.mono (h : Converges source copy pending)
    (hpending : pending source → pending' source) : Converges source copy pending' :=
  h.imp_right hpending

/-- **A write that does not overtake.** If what is written is no older than the copy, and the other
writes stay pending, the copy still converges. -/
theorem Converges.write (h : Converges source copy pending) (hw : Taken source w)
    (hnew : copy.version ≤ w.version)
    (hpending : pending source → w ≠ source → pending' source) :
    Converges source w pending' := by
  by_cases hsource : w = source
  · exact Or.inl hsource
  · refine Or.inr ?_
    rcases h with rfl | h
    · exact absurd (hw.eq (Nat.le_antisymm hw.le hnew)) hsource
    · exact hpending h hsource

/-- With no write pending, the copy agrees. -/
theorem Converges.eq (h : Converges source copy pending) (hnone : ¬pending source) :
    copy = source :=
  h.resolve_right hnone

end DelayedWrite
