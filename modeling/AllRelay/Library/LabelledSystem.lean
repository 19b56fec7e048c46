import Mathlib.Data.List.Basic
import Mathlib.Tactic.TypeStar

/-!
# Executable labelled systems

A **labelled system** is a step function `σ → ℓ → Option σ`: the label resolves every choice of the
scheduler and of the environment (which party moves, whether a dial or a write succeeds), so a step
is a partial function and a schedule is a list of labels. `none` means that the step is disabled.

Two rules carry every safety argument over such a system.

* `exec_invariant` packages the induction once: a property preserved by each step is preserved by a
  whole run. `exec_invariant_along` is the same rule for runs whose steps all satisfy a side
  condition `C`, which is how a property that only holds of well-behaved schedules is stated.
* `exec_step_along` splits a run at one of its steps, which turns a statement about every step of a
  run into one about reachable states.

Nothing here depends on what the states are.
-/

namespace LabelledSystem

variable {σ ℓ : Type*}

/-- Run a schedule from a state; `none` as soon as one of its steps is disabled. -/
def exec (step : σ → ℓ → Option σ) : σ → List ℓ → Option σ
  | s, [] => some s
  | s, l :: ls => (step s l).bind fun t ↦ exec step t ls

/-- Every step of the run of a schedule satisfies `C`, read off at the state it starts from. -/
def Along (step : σ → ℓ → Option σ) (C : σ → ℓ → Prop) : σ → List ℓ → Prop
  | _, [] => True
  | s, l :: ls => C s l ∧ ∀ t, step s l = some t → Along step C t ls

/-- A state that some schedule reaches from an initial one. -/
def Reachable (init : σ → Prop) (step : σ → ℓ → Option σ) (s : σ) : Prop :=
  ∃ s₀ ls, init s₀ ∧ exec step s₀ ls = some s

variable {step : σ → ℓ → Option σ}

@[simp]
theorem exec_nil (s : σ) : exec step s [] = some s :=
  rfl

theorem exec_cons (s : σ) (l : ℓ) (ls : List ℓ) :
    exec step s (l :: ls) = (step s l).bind fun t ↦ exec step t ls :=
  rfl

/-- A run that starts with `l` is a step followed by a run. -/
theorem exec_cons_eq_some_iff {s u : σ} {l : ℓ} {ls : List ℓ} :
    exec step s (l :: ls) = some u ↔ ∃ t, step s l = some t ∧ exec step t ls = some u := by
  rw [exec_cons, Option.bind_eq_some_iff]

theorem exec_append (s : σ) (ls ms : List ℓ) :
    exec step s (ls ++ ms) = (exec step s ls).bind fun t ↦ exec step t ms := by
  induction ls generalizing s with
  | nil => rfl
  | cons l ls ih =>
    rw [List.cons_append, exec_cons, exec_cons, Option.bind_assoc]
    exact congrArg _ (funext ih)

theorem exec_append_eq_some_iff {s u : σ} {ls ms : List ℓ} :
    exec step s (ls ++ ms) = some u ↔
      ∃ t, exec step s ls = some t ∧ exec step t ms = some u := by
  rw [exec_append, Option.bind_eq_some_iff]

@[simp]
theorem along_nil {C : σ → ℓ → Prop} (s : σ) : Along step C s [] :=
  trivial

instance Along.decidable {C : σ → ℓ → Prop} [∀ s l, Decidable (C s l)] :
    ∀ (s : σ) (ls : List ℓ), Decidable (Along step C s ls)
  | _, [] => inferInstanceAs (Decidable True)
  | s, l :: ls =>
    have (t : σ) : Decidable (Along step C t ls) := Along.decidable t ls
    inferInstanceAs (Decidable (C s l ∧ ∀ t ∈ step s l, Along step C t ls))

/-- A side condition is checked along a given run step by step. -/
theorem Along.cons {C : σ → ℓ → Prop} {s t : σ} {l : ℓ} {ls : List ℓ} (hs : C s l)
    (hstep : step s l = some t) (h : Along step C t ls) : Along step C s (l :: ls) := by
  refine ⟨hs, fun u hu ↦ ?_⟩
  rw [hstep, Option.some.injEq] at hu
  exact hu ▸ h

/-- **The invariant rule, with a side condition**: along a run whose steps all satisfy `C`, a
property that such steps preserve holds at the end if it holds at the start. -/
theorem exec_invariant_along {C : σ → ℓ → Prop} {P : σ → Prop}
    (hstep : ∀ s l t, C s l → P s → step s l = some t → P t) :
    ∀ {ls s u}, Along step C s ls → P s → exec step s ls = some u → P u := by
  intro ls
  induction ls with
  | nil =>
    intro s u _ hs h
    rw [exec_nil, Option.some.injEq] at h
    exact h ▸ hs
  | cons l ls ih =>
    intro s u hC hs h
    obtain ⟨t, ht, hu⟩ := exec_cons_eq_some_iff.1 h
    exact ih (hC.2 t ht) (hstep s l t hC.1 hs ht) hu

/-- **Exact side conditions.** If a step from a state with the invariant keeps the invariant under a
condition and otherwise leads to a state without `P`, then a run is in `P` throughout exactly when
the condition holds along it. -/
theorem throughout_iff_along {C : σ → ℓ → Prop} {I P : σ → Prop} (hP : ∀ s, I s → P s)
    (hstep : ∀ s l t, C s l → I s → step s l = some t → I t)
    (hexact : ∀ s l, I s → ¬C s l → ∃ t, step s l = some t ∧ ¬P t) :
    ∀ {ls : List ℓ} {s : σ}, I s →
      ((∀ ms t, ms <+: ls → exec step s ms = some t → P t) ↔ Along step C s ls) := by
  intro ls
  induction ls with
  | nil =>
    intro s hs
    refine iff_of_true (fun ms t hms h ↦ ?_) trivial
    rw [List.prefix_nil.1 hms, exec_nil, Option.some.injEq] at h
    exact h ▸ hP s hs
  | cons l ls ih =>
    intro s hs
    constructor
    · intro h
      have hC : C s l := by
        by_contra hC
        obtain ⟨t, ht, hPt⟩ := hexact s l hs hC
        exact hPt (h [l] t ⟨ls, rfl⟩ (exec_cons_eq_some_iff.2 ⟨t, ht, rfl⟩))
      refine ⟨hC, fun t ht ↦ (ih (hstep s l t hC hs ht)).1 fun ms u hms hu ↦ ?_⟩
      exact h (l :: ms) u (List.cons_prefix_cons.2 ⟨rfl, hms⟩) (exec_cons_eq_some_iff.2 ⟨t, ht, hu⟩)
    · rintro ⟨hC, hls⟩ ms u hms hu
      rcases ms with _ | ⟨m, ms⟩
      · rw [exec_nil, Option.some.injEq] at hu
        exact hu ▸ hP s hs
      · obtain ⟨rfl, hls'⟩ := List.cons_prefix_cons.1 hms
        obtain ⟨t, ht, hu⟩ := exec_cons_eq_some_iff.1 hu
        exact (ih (hstep s m t hC hs ht)).2 (hls t ht) ms u hls' hu

theorem along_of_forall {C : σ → ℓ → Prop} (h : ∀ s l, C s l) :
    ∀ (ls : List ℓ) (s : σ), Along step C s ls
  | [], _ => trivial
  | l :: ls, s => ⟨h s l, fun t _ ↦ along_of_forall h ls t⟩

/-- A side condition on labels alone holds along a run when it holds of the schedule. -/
theorem along_of_forall_mem {C : ℓ → Prop} :
    ∀ {ls : List ℓ} {s : σ}, (∀ l ∈ ls, C l) → Along step (fun _ l ↦ C l) s ls
  | [], _, _ => trivial
  | l :: _, _, h =>
    ⟨h l List.mem_cons_self,
      fun _ _ ↦ along_of_forall_mem fun m hm ↦ h m (List.mem_cons_of_mem l hm)⟩

theorem Along.mono {C D : σ → ℓ → Prop} (h : ∀ s l, C s l → D s l) :
    ∀ {ls : List ℓ} {s : σ}, Along step C s ls → Along step D s ls
  | [], _, _ => trivial
  | l :: _, s, hC => ⟨h s l hC.1, fun t ht ↦ (hC.2 t ht).mono h⟩

theorem Along.and {C D : σ → ℓ → Prop} :
    ∀ {ls : List ℓ} {s : σ}, Along step C s ls → Along step D s ls →
      Along step (fun s l ↦ C s l ∧ D s l) s ls
  | [], _, _, _ => trivial
  | _ :: _, _, hC, hD => ⟨⟨hC.1, hD.1⟩, fun t ht ↦ (hC.2 t ht).and (hD.2 t ht)⟩

/-- **Exact properties.** If a step leads to a state with the property exactly from a state with the
property and under a condition, then so does a run, and the condition holds along it. -/
theorem exec_iff_along {C D : σ → ℓ → Prop} {I : σ → Prop}
    (h : ∀ s l t, D s l → step s l = some t → (I t ↔ I s ∧ C s l)) :
    ∀ {ls : List ℓ} {s u : σ}, Along step D s ls → exec step s ls = some u →
      (I u ↔ I s ∧ Along step C s ls) := by
  intro ls
  induction ls with
  | nil =>
    intro s u _ hu
    rw [exec_nil, Option.some.injEq] at hu
    subst hu
    exact (and_iff_left trivial).symm
  | cons l ls ih =>
    intro s u hD hu
    obtain ⟨t, ht, hu⟩ := exec_cons_eq_some_iff.1 hu
    rw [ih (hD.2 t ht) hu, h s l t hD.1 ht, and_assoc]
    refine and_congr_right fun _ ↦ and_congr_right fun _ ↦ ⟨fun hC t' ht' ↦ ?_, fun hC ↦ hC t ht⟩
    rw [ht, Option.some.injEq] at ht'
    exact ht' ▸ hC

/-- **Refinement with stuttering.** A step that has a label of another system is a step of it on the
view of the state, and every other step leaves the view alone. -/
theorem exec_refines {τ m : Type*} {step' : τ → m → Option τ} {view : σ → τ} {g : ℓ → Option m}
    {C : σ → ℓ → Prop}
    (hstutter : ∀ s l t, C s l → step s l = some t → g l = none → view t = view s)
    (hstep : ∀ s l t a, C s l → step s l = some t → g l = some a →
      step' (view s) a = some (view t)) :
    ∀ {ls : List ℓ} {s u : σ}, Along step C s ls → exec step s ls = some u →
      exec step' (view s) (ls.filterMap g) = some (view u) := by
  intro ls
  induction ls with
  | nil =>
    intro s u _ hu
    rw [exec_nil, Option.some.injEq] at hu
    exact congrArg _ (congrArg view hu)
  | cons l ls ih =>
    intro s u hC hu
    obtain ⟨t, ht, hu⟩ := exec_cons_eq_some_iff.1 hu
    have hrest := ih (hC.2 t ht) hu
    cases hl : g l with
    | none =>
      rw [List.filterMap_cons_none hl, ← hstutter s l t hC.1 ht hl]
      exact hrest
    | some a =>
      rw [List.filterMap_cons_some hl]
      exact exec_cons_eq_some_iff.2 ⟨view t, hstep s l t a hC.1 ht hl, hrest⟩

/-- **The invariant rule**: a property preserved by every step is preserved by every run. -/
theorem exec_invariant {P : σ → Prop} (hstep : ∀ s l t, P s → step s l = some t → P t)
    {ls : List ℓ} {s u : σ} (hs : P s) (h : exec step s ls = some u) : P u :=
  exec_invariant_along (C := fun _ _ ↦ True) (fun s l t _ ↦ hstep s l t)
    (along_of_forall (fun _ _ ↦ trivial) ls s) hs h

/-- **The termination rule**: if every step lowers a measure, no run is longer than the measure of
the state that it starts from. -/
theorem exec_length_le {μ : σ → ℕ} (hstep : ∀ s l t, step s l = some t → μ t < μ s) :
    ∀ {ls : List ℓ} {s u : σ}, exec step s ls = some u → ls.length ≤ μ s
  | [], _, _, _ => Nat.zero_le _
  | l :: ls, s, u, h => by
    obtain ⟨t, ht, hu⟩ := exec_cons_eq_some_iff.1 h
    exact Nat.succ_le_of_lt (Nat.lt_of_le_of_lt (exec_length_le hstep hu) (hstep s l t ht))

/-- The weight of a run, summed up over its steps. -/
def weight (step : σ → ℓ → Option σ) (w : σ → ℓ → ℕ) : σ → List ℓ → ℕ
  | _, [] => 0
  | s, l :: ls => w s l + (step s l).elim 0 fun t ↦ weight step w t ls

/-- **The weighted termination rule**: if every step lowers a measure by its weight at least, then
the weight of a run is bounded by the measure of the state that it starts from. -/
theorem weight_le {P : σ → Prop} {w : σ → ℓ → ℕ} {μ : σ → ℕ}
    (hstep : ∀ s l t, P s → step s l = some t → P t ∧ w s l + μ t ≤ μ s) :
    ∀ {ls : List ℓ} {s u : σ}, P s → exec step s ls = some u → weight step w s ls + μ u ≤ μ s
  | [], s, u, _, h => by
    obtain rfl := Option.some.inj h
    exact Nat.le_of_eq (Nat.zero_add _)
  | l :: ls, s, u, hs, h => by
    obtain ⟨t, ht, hu⟩ := exec_cons_eq_some_iff.1 h
    obtain ⟨hPt, hle⟩ := hstep s l t hs ht
    have hrest := weight_le hstep hPt hu
    rw [weight, ht, Option.elim_some, Nat.add_assoc]
    exact Nat.le_trans (Nat.add_le_add_left hrest _) hle

/-- The invariant rule at a reachable state. -/
theorem Reachable.invariant {init : σ → Prop} {P : σ → Prop} (hinit : ∀ s, init s → P s)
    (hstep : ∀ s l t, P s → step s l = some t → P t) {s : σ} (h : Reachable init step s) : P s := by
  obtain ⟨s₀, ls, h₀, hs⟩ := h
  exact exec_invariant hstep (hinit s₀ h₀) hs

theorem Reachable.of_exec {init : σ → Prop} {s t : σ} {ls : List ℓ} (h : Reachable init step s)
    (hs : exec step s ls = some t) : Reachable init step t := by
  obtain ⟨s₀, ms, h₀, hms⟩ := h
  exact ⟨s₀, ms ++ ls, h₀, exec_append_eq_some_iff.2 ⟨s, hms, hs⟩⟩

theorem Reachable.of_step {init : σ → Prop} {s t : σ} {l : ℓ} (h : Reachable init step s)
    (hs : step s l = some t) : Reachable init step t :=
  h.of_exec (show exec step s [l] = some t from exec_cons_eq_some_iff.2 ⟨t, hs, rfl⟩)

/-- **Splitting a run at a step.** A statement about every step taken from a reachable state holds
of every step of a run from a reachable state. -/
theorem exec_step_along {init : σ → Prop} {C : σ → ℓ → Prop}
    (h : ∀ s l, Reachable init step s → C s l) :
    ∀ {ls : List ℓ} {s : σ}, Reachable init step s → Along step C s ls
  | [], _, _ => trivial
  | l :: _, s, hs => ⟨h s l hs, fun _ ht ↦ exec_step_along h (hs.of_step ht)⟩

end LabelledSystem
