import AllRelay.Library.LabelledSystem
import Mathlib.Logic.Function.Basic

/-!
# Threads with mutexes, and proof outlines for them

A **locked-thread program** is a family of threads that run the same code over a shared state. What
a thread does next is given by its program point: the locks it holds there (`holds`), the lock its
next step has to acquire (`needs`), and the effect of that step on the shared state (`next`, with a
choice `ε` for everything the environment decides). A step that needs a lock is disabled while some
thread holds it; leaving a program point releases the locks that the next one does not hold.

A **proof outline** (`ProofOutline`) attaches to such a program

* a global invariant `I` of the shared state,
* an invariant `R k` of every lock `k`, which holds of the shared state while `k` is free, and
* an assertion `A p` at every program point `p`, which holds while some thread is there.

Its obligations speak of one step of one thread only: the step keeps `I`, reaches the assertion of
its next point and restores the invariants of the locks it gives back, and it does not interfere
with a lock it does not hold, nor with an assertion at a point that is *compatible* with its own,
that is, where no thread can be unless the locks are shared. `ProofOutline.reachable` turns them
into a statement about every reachable configuration of any number of threads. Mutual exclusion is
part of the conclusion and not of the obligations.
-/

/-- A program of threads: `σ` is the shared state, `π` the program points, `κ` the locks and `ε` the
choices of the environment. -/
structure LockedThreads (σ π κ ε : Type*) where
  /-- The locks a thread holds at a program point. -/
  holds : π → κ → Bool
  /-- The lock the next step acquires, if any. -/
  needs : π → Option κ
  /-- The next step of a thread, provided that it gets the lock it needs. -/
  next : ε → σ → π → Option (σ × π)
  /-- A step acquires no lock but the one it needs. -/
  acquires : ∀ {e s p s' p' k}, next e s p = some (s', p') → holds p' k = true →
    holds p k = true ∨ needs p = some k

namespace LockedThreads

/-- A configuration: the shared state, where every thread is, and who holds the locks. -/
structure Config (σ π κ : Type*) where
  /-- The shared state. -/
  shared : σ
  /-- The program point of a thread. -/
  point : ℕ → π
  /-- The thread that holds a lock. -/
  holder : κ → Option ℕ

variable {σ π κ ε : Type*} (P : LockedThreads σ π κ ε)

/-- Thread `t` moves to `p'` and leaves the shared state `s'`. -/
def goto (c : Config σ π κ) (t : ℕ) (s' : σ) (p' : π) : Config σ π κ where
  shared := s'
  point := Function.update c.point t p'
  holder k :=
    if P.holds p' k then some t else if P.holds (c.point t) k then none else c.holder k

/-- The step of a thread with a choice of the environment. -/
def step (c : Config σ π κ) (l : ℕ × ε) : Option (Config σ π κ) :=
  if (P.needs (c.point l.1)).all fun k ↦ (c.holder k).isNone then
    (P.next l.2 c.shared (c.point l.1)).map fun r ↦ P.goto c l.1 r.1 r.2
  else none

/-- **What a step can do.** -/
theorem step_eq_some_iff {c c' : Config σ π κ} {t : ℕ} {e : ε} :
    P.step c (t, e) = some c' ↔
      (∀ k, P.needs (c.point t) = some k → c.holder k = none) ∧
      ∃ s' p', P.next e c.shared (c.point t) = some (s', p') ∧ P.goto c t s' p' = c' := by
  have hfree : ((P.needs (c.point t)).all fun k ↦ (c.holder k).isNone) = true ↔
      ∀ k, P.needs (c.point t) = some k → c.holder k = none := by
    cases P.needs (c.point t) <;> simp
  show (if _ then _ else _) = _ ↔ _
  rw [Option.ite_none_right_eq_some, hfree, Option.map_eq_some_iff, Prod.exists]

/-! ### Mutual exclusion -/

/-- The holder of a lock is the thread whose program point holds it. -/
def Mutex (c : Config σ π κ) : Prop :=
  ∀ k t, c.holder k = some t ↔ P.holds (c.point t) k = true

variable {P}

theorem Mutex.step {c c' : Config σ π κ} {l : ℕ × ε} (hm : P.Mutex c)
    (h : P.step c l = some c') : P.Mutex c' := by
  obtain ⟨t, e⟩ := l
  obtain ⟨hfree, s', p', hnext, rfl⟩ := (P.step_eq_some_iff).1 h
  intro k u
  by_cases hu : u = t
  · subst hu
    simp only [goto, Function.update_self]
    by_cases hp' : P.holds p' k = true
    · simp [hp']
    · by_cases hp : P.holds (c.point u) k = true
      · simp [hp', hp]
      · simpa [hp', hp] using fun hk ↦ hp ((hm k u).1 hk)
  · have hne : t ≠ u := fun h ↦ hu h.symm
    simp only [goto, Function.update_of_ne hu]
    by_cases hp' : P.holds p' k = true
    · -- The lock is now held by `t`, so `u` could not hold it before the step.
      simp only [hp', if_true, Option.some.injEq, hne, false_iff, Bool.not_eq_true]
      refine Bool.eq_false_iff.2 fun hk ↦ ?_
      have hholder := (hm k u).2 hk
      rcases P.acquires hnext hp' with hp | hneeds
      · exact hne (Option.some.inj (((hm k t).2 hp).symm.trans hholder))
      · rw [hfree k hneeds] at hholder
        cases hholder
    · by_cases hp : P.holds (c.point t) k = true
      · simp only [hp', hp, if_true, Bool.false_eq_true, if_false, reduceCtorEq, false_iff,
          Bool.not_eq_true]
        refine Bool.eq_false_iff.2 fun hk ↦ ?_
        exact hne (Option.some.inj (((hm k t).2 hp).symm.trans ((hm k u).2 hk)))
      · simpa [hp', hp] using hm k u

/-- At most one thread is at a point that holds a lock. -/
theorem Mutex.eq_of_holds {c : Config σ π κ} (hm : P.Mutex c) {k : κ} {t u : ℕ}
    (ht : P.holds (c.point t) k = true) (hu : P.holds (c.point u) k = true) : t = u :=
  Option.some.inj (((hm k t).2 ht).symm.trans ((hm k u).2 hu))

/-! ### Proof outlines -/

/-- A thread may be at `q` when another takes a step from `p`. -/
structure Compatible (P : LockedThreads σ π κ ε) (p q : π) : Prop where
  /-- No lock is held at both points. -/
  held : ∀ k, P.holds p k = true → P.holds q k = false
  /-- The lock the step needs is not held at `q`. -/
  needed : ∀ k, P.needs p = some k → P.holds q k = false

/-- A proof outline: a global invariant, lock invariants and assertions, with the obligations on one
step. -/
structure ProofOutline (P : LockedThreads σ π κ ε) (I : σ → Prop) (R : κ → σ → Prop)
    (A : π → σ → Prop) : Prop where
  /-- A step keeps the global invariant, and reaches its next assertion. -/
  own : ∀ {e s p s' p'}, P.next e s p = some (s', p') → I s → A p s →
    (∀ k, P.needs p = some k → R k s) → I s' ∧ A p' s'
  /-- A step restores the invariants of the locks it gives back. -/
  release : ∀ {e s p s' p'}, P.next e s p = some (s', p') → I s → A p s →
    (∀ k, P.needs p = some k → R k s) →
    ∀ k, P.holds p k = true ∨ P.needs p = some k → P.holds p' k = false → R k s'
  /-- A step keeps the invariants of the other locks. -/
  lock : ∀ {e s p s' p'}, P.next e s p = some (s', p') → I s → A p s →
    ∀ k, P.holds p k = false → P.needs p ≠ some k → R k s → R k s'
  /-- A step keeps the assertions of the other threads. -/
  thread : ∀ {e s p s' p'}, P.next e s p = some (s', p') → I s → A p s →
    ∀ q, P.Compatible p q → A q s → A q s'

variable {I : σ → Prop} {R : κ → σ → Prop} {A : π → σ → Prop}

/-- The configurations a proof outline describes. -/
structure Sound (P : LockedThreads σ π κ ε) (I : σ → Prop) (R : κ → σ → Prop) (A : π → σ → Prop)
    (c : Config σ π κ) : Prop where
  /-- Mutual exclusion. -/
  mutex : P.Mutex c
  /-- The global invariant holds. -/
  global : I c.shared
  /-- The invariant of a free lock holds. -/
  free : ∀ k, c.holder k = none → R k c.shared
  /-- The assertion at the program point of a thread holds. -/
  assertion : ∀ t, A (c.point t) c.shared

/-- **A step keeps a proof outline sound.** -/
theorem Sound.step (ho : P.ProofOutline I R A) {c c' : Config σ π κ} {l : ℕ × ε}
    (hc : P.Sound I R A c) (h : P.step c l = some c') : P.Sound I R A c' := by
  have hmutex := hc.mutex.step h
  obtain ⟨t, e⟩ := l
  obtain ⟨hfree, s', p', hnext, rfl⟩ := (P.step_eq_some_iff).1 h
  have hR : ∀ k, P.needs (c.point t) = some k → R k c.shared := fun k hk ↦ hc.free k (hfree k hk)
  obtain ⟨hI, hA⟩ := ho.own hnext hc.global (hc.assertion t) hR
  refine ⟨hmutex, hI, fun k hk ↦ ?_, fun u ↦ ?_⟩
  · have hp' : P.holds p' k = false := by
      refine Bool.eq_false_iff.2 fun hp' ↦ ?_
      simp [goto, hp'] at hk
    by_cases hp : P.holds (c.point t) k = true
    · exact ho.release hnext hc.global (hc.assertion t) hR k (Or.inl hp) hp'
    · by_cases hneeds : P.needs (c.point t) = some k
      · exact ho.release hnext hc.global (hc.assertion t) hR k (Or.inr hneeds) hp'
      · have hk' : c.holder k = none := by simpa [goto, hp', hp] using hk
        exact ho.lock hnext hc.global (hc.assertion t) k (Bool.eq_false_iff.2 hp) hneeds
          (hc.free k hk')
  · by_cases hu : u = t
    · subst hu
      simpa [goto] using hA
    · -- Another thread: its point is compatible with the one the step leaves.
      have hcompat : P.Compatible (c.point t) (c.point u) := by
        refine ⟨fun k hk ↦ Bool.eq_false_iff.2 fun hq ↦ hu (hc.mutex.eq_of_holds hq hk),
          fun k hk ↦ Bool.eq_false_iff.2 fun hq ↦ ?_⟩
        have hholder := (hc.mutex k u).2 hq
        rw [hfree k hk] at hholder
        cases hholder
      simpa [goto, hu] using ho.thread hnext hc.global (hc.assertion t) _ hcompat (hc.assertion u)

/-- **The rule of proof outlines**: an outline that is sound initially is sound in every reachable
configuration. -/
theorem ProofOutline.reachable (ho : P.ProofOutline I R A) {init : Config σ π κ → Prop}
    (hinit : ∀ c, init c → P.Sound I R A c) {c : Config σ π κ}
    (hc : LabelledSystem.Reachable init P.step c) : P.Sound I R A c :=
  hc.invariant hinit fun _ _ _ hs h ↦ hs.step ho h

end LockedThreads
