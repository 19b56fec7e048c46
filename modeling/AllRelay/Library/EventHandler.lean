import Mathlib.Data.List.Basic
import Mathlib.Tactic.TypeStar

/-!
# Event handlers

A program that reacts to events: `next` is its state after an event and `out` the message that it
sends while it handles the event, if any. `emitted` is what a whole run sends.

`Answered A B l` says that every `A` in `l` has a `B` after it. For what a run sends this can be
read off the events: `answered_emitted_iff` needs no more of the messages than which event sends
which.
-/

namespace EventHandler

variable {σ ε μ : Type*}

/-- The state after a run. -/
def after (next : σ → ε → σ) : σ → List ε → σ :=
  List.foldl next

/-- The messages that a run sends. -/
def emitted (next : σ → ε → σ) (out : σ → ε → Option μ) : σ → List ε → List μ
  | _, [] => []
  | s, e :: es => (out s e).toList ++ emitted next out (next s e) es

/-- Every `A` has a `B` after it. -/
def Answered (A B : μ → Prop) (l : List μ) : Prop :=
  ∀ p a q, l = p ++ a :: q → A a → ∃ b ∈ q, B b

variable {next : σ → ε → σ} {out : σ → ε → Option μ}

@[simp]
theorem answered_nil {A B : μ → Prop} : Answered A B [] := by
  intro p a q h
  exact absurd h (by simp)

theorem answered_cons {A B : μ → Prop} {m : μ} {l : List μ} :
    Answered A B (m :: l) ↔ (A m → ∃ b ∈ l, B b) ∧ Answered A B l := by
  constructor
  · intro h
    refine ⟨h [] m l rfl, fun p a q hl ↦ h (m :: p) a q ?_⟩
    rw [hl, List.cons_append]
  · rintro ⟨hm, hl⟩ p a q h
    rcases p with _ | ⟨m', p⟩
    · obtain ⟨rfl, rfl⟩ := List.cons.inj h
      exact hm
    · obtain ⟨-, h⟩ := List.cons.inj h
      exact hl p a q h

@[simp]
theorem after_nil (s : σ) : after next s [] = s :=
  rfl

@[simp]
theorem after_cons (s : σ) (e : ε) (es : List ε) :
    after next s (e :: es) = after next (next s e) es :=
  rfl

theorem after_append (s : σ) (es fs : List ε) :
    after next s (es ++ fs) = after next (after next s es) fs :=
  List.foldl_append

/-- The state after one more event. -/
theorem after_concat (s : σ) (es : List ε) (e : ε) :
    after next s (es ++ [e]) = next (after next s es) e :=
  after_append s es [e]

theorem emitted_append (s : σ) (es fs : List ε) :
    emitted next out s (es ++ fs) =
      emitted next out s es ++ emitted next out (after next s es) fs := by
  induction es generalizing s with
  | nil => rfl
  | cons e es ih => rw [List.cons_append, emitted, emitted, ih, after_cons, List.append_assoc]

/-- What a run sends, split at an event that sends a message. -/
theorem emitted_split {s : σ} {pre post : List ε} {e : ε} {m : μ}
    (h : out (after next s pre) e = some m) :
    emitted next out s (pre ++ e :: post) =
      emitted next out s pre ++ m :: emitted next out (after next s (pre ++ [e])) post := by
  rw [emitted_append, emitted, h, after_concat]
  rfl

/-- **Messages come from events.** A message that a run sends was sent for one of its events, and
what comes before and after it was sent by the run before and after that event. -/
theorem exists_event_of_emitted {s : σ} {es : List ε} {p q : List μ} {m : μ}
    (h : emitted next out s es = p ++ m :: q) :
    ∃ pre e post, es = pre ++ e :: post ∧ out (after next s pre) e = some m ∧
      emitted next out (after next s (pre ++ [e])) post = q := by
  induction es generalizing s p with
  | nil =>
    rw [emitted] at h
    exact absurd h (by simp)
  | cons e es ih =>
    rw [emitted] at h
    -- The message is that of the first event, or one of the rest of the run.
    rcases hout : out s e with _ | m'
    · rw [hout] at h
      obtain ⟨pre, e', post, rfl, hm, hq⟩ := ih h
      exact ⟨e :: pre, e', post, rfl, hm, hq⟩
    · rw [hout] at h
      rcases p with _ | ⟨m'', p⟩
      · obtain ⟨rfl, hq⟩ := List.cons.inj h
        exact ⟨[], e, es, rfl, hout, hq⟩
      · obtain ⟨-, hp⟩ := List.cons.inj h
        obtain ⟨pre, e', post, rfl, hm, hq⟩ := ih hp
        exact ⟨e :: pre, e', post, rfl, hm, hq⟩

/-- **Answers are answers of events.** -/
theorem answered_emitted_iff {A B : μ → Prop} {s : σ} {es : List ε} :
    Answered A B (emitted next out s es) ↔
      ∀ pre e post m, es = pre ++ e :: post → out (after next s pre) e = some m → A m →
        ∃ mid f post' m', post = mid ++ f :: post' ∧
          out (after next s (pre ++ e :: mid)) f = some m' ∧ B m' := by
  have hafter (pre : List ε) (e : ε) (mid : List ε) :
      after next (after next s (pre ++ [e])) mid = after next s (pre ++ e :: mid) := by
    rw [← after_append, List.append_assoc, List.singleton_append]
  constructor
  · rintro h pre e post m rfl hm hA
    obtain ⟨m', hmem, hB⟩ := h _ _ _ (emitted_split hm) hA
    obtain ⟨p, q, hpq⟩ := List.append_of_mem hmem
    obtain ⟨mid, f, post', rfl, hf, -⟩ := exists_event_of_emitted hpq
    exact ⟨mid, f, post', m', rfl, hafter pre e mid ▸ hf, hB⟩
  · intro h p m q hpq hA
    obtain ⟨pre, e, post, rfl, hm, rfl⟩ := exists_event_of_emitted hpq
    obtain ⟨mid, f, post', m', rfl, hf, hB⟩ := h pre e post m rfl hm hA
    refine ⟨m', ?_, hB⟩
    rw [← hafter] at hf
    rw [emitted_split hf]
    exact List.mem_append_right _ List.mem_cons_self

end EventHandler
