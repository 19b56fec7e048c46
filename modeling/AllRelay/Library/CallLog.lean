import Mathlib.Data.List.Induction
import Mathlib.Data.List.Infix

/-!
# Logs of calls

What a component does to a device is a log of calls. A rule about a call and the calls before it
holds in a log when it holds at each of its calls (`AtEach`); a log grows by one call at a time
(`atEach_concat`).
-/

namespace CallLog

variable {α : Type*} {Q : List α → α → Prop} {log : List α} {a : α}

/-- The rule `Q` holds of each call of a log and the calls before it. -/
def AtEach (Q : List α → α → Prop) (log : List α) : Prop :=
  ∀ before a, before ++ [a] <+: log → Q before a

theorem atEach_nil : AtEach Q [] :=
  fun _ _ h ↦ absurd (List.prefix_nil.mp h) (List.append_ne_nil_of_right_ne_nil _ (by simp))

theorem atEach_concat : AtEach Q (log ++ [a]) ↔ AtEach Q log ∧ Q log a := by
  constructor
  · intro h
    exact ⟨fun before b hb ↦ h before b (hb.trans (List.prefix_append log [a])),
      h log a (List.prefix_refl _)⟩
  · rintro ⟨hlog, ha⟩ before b hb
    obtain heq | hb := List.prefix_concat_iff.mp hb
    · obtain ⟨rfl, hba⟩ := List.append_inj' heq rfl
      cases hba
      exact ha
    · exact hlog before b hb

/-- A call that the rule allows only once is made at most once. -/
theorem AtEach.count_le_one [DecidableEq α] (h : AtEach Q log)
    (hQ : ∀ before, Q before a → a ∉ before) :
    log.count a ≤ 1 := by
  induction log using List.reverseRecOn with
  | nil => exact Nat.zero_le 1
  | append_singleton log b ih =>
    obtain ⟨hlog, hb⟩ := atEach_concat.mp h
    rw [List.count_append, List.count_singleton]
    by_cases hba : b = a
    · rw [List.count_eq_zero_of_not_mem (hQ log (hba ▸ hb))]
      split <;> decide
    · rw [if_neg (by simpa using hba), Nat.add_zero]
      exact ih hlog

end CallLog
