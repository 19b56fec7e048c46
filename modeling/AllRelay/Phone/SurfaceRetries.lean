import AllRelay.Phone.SurfaceEncoder

/-!
# How often the video encoder retries

A failure of the codec or the capture is retried. Once a frame has been sent, the third failure in a
row is final. Before, each retry asks the capture for a smaller size: the next of
`MAX_SIZE_FALLBACK` below the size that has failed. That the size becomes smaller takes a codec
whose smallest side is not larger than the last fallback: the smallest side of the codec is
respected whatever is asked for.
-/

open LabelledSystem

namespace AllRelay.Video

/-! ### The fallbacks -/

/-- The fallbacks that are smaller than a size. -/
def remaining (maxSize : ℤ) : ℕ := (maxSizeFallback.filter (· < maxSize)).length

theorem remaining_le {a b : ℤ} (h : a ≤ b) : remaining a ≤ remaining b :=
  (List.monotone_filter_right _ fun _ hv ↦
    decide_eq_true ((of_decide_eq_true hv).trans_le h)).length_le

/-- A fallback is one of those that remain, and the smaller ones remain behind it. -/
theorem remaining_fallback {failedSize : Size} {newMaxSize : ℤ}
    (h : chooseMaxSizeFallback failedSize = newMaxSize) (hne : newMaxSize ≠ 0) :
    newMaxSize ∈ maxSizeFallback ∧ newMaxSize < failedSize.getMax ∧
      remaining newMaxSize + 1 ≤ remaining failedSize.getMax := by
  obtain ⟨v, hv⟩ : ∃ v, maxSizeFallback.find? (· < failedSize.getMax) = some v := by
    cases hfind : maxSizeFallback.find? (· < failedSize.getMax) with
    | none =>
      rw [chooseMaxSizeFallback, hfind] at h
      exact absurd h.symm hne
    | some v => exact ⟨v, rfl⟩
  obtain rfl : v = newMaxSize := by
    rw [chooseMaxSizeFallback, hv] at h
    exact h
  have hmem := List.mem_of_find?_eq_some hv
  have hlt : v < failedSize.getMax :=
    of_decide_eq_true (List.find?_some (p := (· < failedSize.getMax)) hv)
  refine ⟨hmem, hlt, ?_⟩
  have hsub : (maxSizeFallback.filter (· < v)).Sublist
      (maxSizeFallback.filter (· < failedSize.getMax)) :=
    List.monotone_filter_right _ fun _ hw ↦ decide_eq_true ((of_decide_eq_true hw).trans hlt)
  refine lt_of_le_of_ne hsub.length_le fun heq ↦ ?_
  -- `v` itself is on the right only.
  have hv' : v ∈ maxSizeFallback.filter (· < v) := by
    rw [hsub.eq_of_length heq]
    exact List.mem_filter.2 ⟨hmem, decide_eq_true hlt⟩
  exact lt_irrefl v (of_decide_eq_true (List.mem_filter.1 hv').2)

theorem fallback_spec {v : ℤ} (h : v ∈ maxSizeFallback) :
    800 ≤ v ∧ v < maxSide ∧ remaining v ≤ 5 := by
  rw [maxSizeFallback] at h
  simp only [List.mem_cons, List.not_mem_nil, or_false] at h
  obtain rfl | rfl | rfl | rfl | rfl | rfl := h <;> decide

/-! ### Each retry lowers the size -/

/-- The sizes that the filter of the capture puts out. -/
def Label.Small (l : Label) : Prop :=
  ∀ outputSize, l = .thread (.size outputSize) → outputSize.Small

/-- The codec whose smallest side is not larger than the last fallback. -/
structure Config.Shrinks (config : Config) : Prop where
  /-- The constraints. -/
  constraints : config.constraints.Valid
  /-- The smallest side. -/
  minCodecSize : Size.alignUp config.constraints.minCodecSize config.constraints.alignment ≤ 800

namespace State

variable {s t : State} {config : Config} {answer : Answer}

/-- What is known about retries. -/
structure Retried (config : Config) (s : State) : Prop where
  /-- The constraints are those of the start, or a fallback is the maximum. -/
  constraints : s.constraints = config.constraints ∨
    ∃ v ∈ maxSizeFallback, s.constraints = config.constraints.withMaxSize v
  /-- The size of a pass obeys them. -/
  size : s.pc.phase = .pass ∨ s.pc.phase = .encode → 0 < s.constraints.maxSize →
    s.size.getMax ≤ max s.constraints.maxSize 800
  /-- Before the first frame, a fallback is used up with each retry. -/
  early : s.firstFrameSent = false → s.retries = 0 ∨
    config.downsizeOnError = true ∧ config.acceptsConstraints = true ∧
      s.constraints.maxSize ∈ maxSizeFallback ∧ s.retries + remaining s.constraints.maxSize ≤ 6
  /-- After it, an error is counted with each retry. -/
  late : s.firstFrameSent = true → s.retries ≤ s.consecutiveErrors ∧ s.retries ≤ 2

theorem Retried.valid (h : s.Retried config) (hc : config.Shrinks) : s.constraints.Valid := by
  obtain heq | ⟨v, hv, heq⟩ := h.constraints
  · rw [heq]
    exact hc.constraints
  · obtain ⟨h800, -, -⟩ := fallback_spec hv
    rw [heq]
    exact { hc.constraints with maxSize_nonneg := by show 0 ≤ v; omega }

theorem Retried.minCodecSize (h : s.Retried config) (hc : config.Shrinks) :
    Size.alignUp s.constraints.minCodecSize s.constraints.alignment ≤ 800 := by
  obtain heq | ⟨v, hv, heq⟩ := h.constraints <;> rw [heq] <;> exact hc.minCodecSize

/-- What `prepareRetry` comes to. -/
theorem prepareRetry_cases (s : State) (config : Config) :
    (s.firstFrameSent = true ∧
      (s.prepareRetry config).1 = { s with consecutiveErrors := s.consecutiveErrors + 1 } ∧
        ((s.prepareRetry config).2 = true → s.consecutiveErrors + 1 < maxConsecutiveErrors)) ∨
    (s.firstFrameSent = false ∧ (s.prepareRetry config).1 = s ∧
      (s.prepareRetry config).2 = false) ∨
    (s.firstFrameSent = false ∧ config.downsizeOnError = true ∧ config.acceptsConstraints = true ∧
      chooseMaxSizeFallback s.size ≠ 0 ∧ (s.prepareRetry config).2 = true ∧
        (s.prepareRetry config).1 =
          { s with
            constraints := config.constraints.withMaxSize (chooseMaxSizeFallback s.size) }) := by
  rw [prepareRetry]
  split
  · rename_i hfirst
    exact .inl ⟨hfirst, rfl, fun h ↦ of_decide_eq_true h⟩
  rename_i hfirst
  replace hfirst := eq_false_of_ne_true hfirst
  split
  · exact .inr (.inl ⟨hfirst, rfl, rfl⟩)
  rename_i hdownsize
  dsimp only
  split
  · exact .inr (.inl ⟨hfirst, rfl, rfl⟩)
  rename_i hne
  split
  · rename_i haccepts
    exact .inr (.inr ⟨hfirst, eq_true_of_ne_false hdownsize, haccepts, hne, rfl, rfl⟩)
  · exact .inr (.inl ⟨hfirst, rfl, rfl⟩)

theorem moves_pass {p q : Pc} (h : p.moves q = true) (hq : q.phase = .pass ∨ q.phase = .encode) :
    p.phase = .pass ∨ p.phase = .encode := by
  have hphase := (Bool.and_eq_true_iff.1 h).1
  revert hphase hq
  generalize p.phase = a
  generalize q.phase = b
  intro hphase hq
  cases a <;> cases b <;> simp_all [Phase.moves]

/-- Nothing happens to the retries. -/
theorem Retried.of_same (hs : s.Retried config)
    (hconstraints : t.view.constraints = s.view.constraints)
    (hsize : t.view.size = s.view.size) (hfirst : t.view.firstFrameSent = s.view.firstFrameSent)
    (herrors : t.view.consecutiveErrors = s.view.consecutiveErrors)
    (hretries : t.view.retries = s.view.retries)
    (hphase : t.pc.phase = .pass ∨ t.pc.phase = .encode →
      s.pc.phase = .pass ∨ s.pc.phase = .encode) : t.Retried config := by
  replace hconstraints : t.constraints = s.constraints := hconstraints
  replace hsize : t.size = s.size := hsize
  replace hfirst : t.firstFrameSent = s.firstFrameSent := hfirst
  replace herrors : t.consecutiveErrors = s.consecutiveErrors := herrors
  replace hretries : t.retries = s.retries := hretries
  constructor
  · rw [hconstraints]
    exact hs.constraints
  · intro hpass
    rw [hconstraints, hsize]
    exact hs.size (hphase hpass)
  · rw [hfirst, hretries, hconstraints]
    exact hs.early
  · rw [hfirst, hretries, herrors]
    exact hs.late

/-- A failure is retried. -/
theorem Retried.retry (hs : s.Retried config) {e : Throwable} (hpc : s.pc = .caught e)
    (hretry : (s.prepareRetry config).2 = true)
    (hview : t.view = { (s.prepareRetry config).1.view with retries := s.retries + 1 })
    (ht : t.pc = .clearRunning) : t.Retried config := by
  have hclosing : ¬(t.pc.phase = .pass ∨ t.pc.phase = .encode) := by
    rw [ht]
    decide
  have hretries : t.retries = s.retries + 1 := congrArg View.retries hview
  obtain ⟨hfirst, heq, herrors⟩ | ⟨-, -, hfail⟩ | ⟨hfirst, hdownsize, haccepts, hne, -, heq⟩ :=
    prepareRetry_cases s config
  · rw [heq] at hview
    have hfirst' : t.firstFrameSent = true := (congrArg View.firstFrameSent hview).trans hfirst
    have hconstraints : t.constraints = s.constraints := congrArg View.constraints hview
    have herrors' : t.consecutiveErrors = s.consecutiveErrors + 1 :=
      congrArg View.consecutiveErrors hview
    refine ⟨by rw [hconstraints]; exact hs.constraints, fun h ↦ absurd h hclosing, ?_, fun _ ↦ ?_⟩
    · rw [hfirst']
      exact fun h ↦ nomatch h
    · have hle := (hs.late hfirst).1
      have hlt : s.consecutiveErrors + 1 < 3 := herrors hretry
      rw [hretries, herrors']
      omega
  · exact absurd (hfail.symm.trans hretry) Bool.false_ne_true
  · rw [heq] at hview
    have hfirst' : t.firstFrameSent = false := (congrArg View.firstFrameSent hview).trans hfirst
    have hconstraints : t.constraints =
        config.constraints.withMaxSize (chooseMaxSizeFallback s.size) :=
      congrArg View.constraints hview
    obtain ⟨hmem, hlt, hremaining⟩ := remaining_fallback rfl hne
    refine ⟨.inr ⟨_, hmem, hconstraints⟩, fun h ↦ absurd h hclosing,
      fun _ ↦ .inr ⟨hdownsize, haccepts, ?_, ?_⟩, ?_⟩
    · rw [hconstraints]
      exact hmem
    · rw [hretries, hconstraints]
      show s.retries + 1 + remaining (chooseMaxSizeFallback s.size) ≤ 6
      obtain hzero | ⟨-, -, hmax, hle⟩ := hs.early hfirst
      · have h5 := (fallback_spec hmem).2.2
        omega
      · -- The size that has failed obeyed the fallback before.
        have h800 := (fallback_spec hmax).1
        have hsize := hs.size (.inl (by rw [hpc]; rfl)) (by omega)
        rw [max_eq_left h800] at hsize
        have hmono := remaining_le hsize
        omega
    · rw [hfirst']
      exact fun h ↦ nomatch h

theorem Retried.advance (hs : s.Retried config) (hc : config.Shrinks)
    (hsmall : (Label.thread answer).Small) (hstep : s.advance config answer = some t) :
    t.Retried config := by
  have hsame {v : View} (hview : t.view = v) (hconstraints : v.constraints = s.view.constraints)
      (hsize : v.size = s.view.size) (hfirst : v.firstFrameSent = s.view.firstFrameSent)
      (herrors : v.consecutiveErrors = s.view.consecutiveErrors)
      (hretries : v.retries = s.view.retries)
      (hphase : t.pc.phase = .pass ∨ t.pc.phase = .encode →
        s.pc.phase = .pass ∨ s.pc.phase = .encode) : t.Retried config := by
    subst hview
    exact hs.of_same hconstraints hsize hfirst herrors hretries hphase
  have hphase {p : Pc} (hpc : t.pc = p) (h : ¬(p.phase = .pass ∨ p.phase = .encode)) :
      t.pc.phase = .pass ∨ t.pc.phase = .encode → s.pc.phase = .pass ∨ s.pc.phase = .encode :=
    fun ht ↦ absurd (hpc ▸ ht) h
  cases effect_advance hstep with
  | quiet hview hmoves | sendPart _ _ _ _ hview hmoves =>
    exact hsame hview rfl rfl rfl rfl rfl (moves_pass hmoves)
  | terminate _ hview ht | consume _ _ hview ht | unprepared _ hview ht =>
    exact hsame hview rfl rfl rfl rfl rfl (hphase ht (by decide))
  | @prepare outputSize _ hpc hview ht =>
    have hconstraints : t.constraints = s.constraints := congrArg View.constraints hview
    have hsize : t.size = outputSize.constrain s.constraints := congrArg View.size hview
    have hfirst : t.firstFrameSent = s.firstFrameSent := congrArg View.firstFrameSent hview
    have hretries : t.retries = s.retries := congrArg View.retries hview
    have herrors : t.consecutiveErrors = s.consecutiveErrors :=
      congrArg View.consecutiveErrors hview
    refine ⟨by rw [hconstraints]; exact hs.constraints, fun _ hmax ↦ ?_, ?_, ?_⟩
    · rw [hconstraints] at hmax ⊢
      rw [hsize]
      exact (Size.getMax_constrain (hsmall outputSize rfl) (hs.valid hc) hmax true).trans
        (max_le_max le_rfl (hs.minCodecSize hc))
    · rw [hfirst, hretries, hconstraints]
      exact hs.early
    · rw [hfirst, hretries, herrors]
      exact hs.late
  | frame hpc hview ht =>
    have hconstraints : t.constraints = s.constraints := congrArg View.constraints hview
    have hsize : t.size = s.size := congrArg View.size hview
    have hretries : t.retries = 0 := congrArg View.retries hview
    have hfirst : t.firstFrameSent = true := congrArg View.firstFrameSent hview
    refine ⟨by rw [hconstraints]; exact hs.constraints, fun _ ↦ ?_, ?_, fun _ ↦ ?_⟩
    · rw [hconstraints, hsize]
      exact hs.size (.inr (by rw [hpc]; rfl))
    · rw [hfirst]
      exact fun h ↦ nomatch h
    · rw [hretries]
      exact ⟨Nat.zero_le _, Nat.zero_le _⟩
  | retry hpc hretry hview ht => exact hs.retry hpc hretry hview ht
  | giveUp hpc hview ht _ =>
    obtain hview | ⟨hfail, hview⟩ := hview
    · exact hsame hview rfl rfl rfl rfl rfl (hphase ht (by decide))
    obtain ⟨hfirst, heq, -⟩ | ⟨-, heq, -⟩ | ⟨-, -, -, -, hretry, -⟩ := prepareRetry_cases s config
    · rw [heq] at hview
      have hconstraints : t.constraints = s.constraints := congrArg View.constraints hview
      have hfirst' : t.firstFrameSent = true := (congrArg View.firstFrameSent hview).trans hfirst
      have herrors : t.consecutiveErrors = s.consecutiveErrors + 1 :=
        congrArg View.consecutiveErrors hview
      have hretries : t.retries = s.retries := congrArg View.retries hview
      refine ⟨by rw [hconstraints]; exact hs.constraints, fun h ↦ ?_, ?_, fun _ ↦ ?_⟩
      · exact absurd (ht ▸ h) (by decide)
      · rw [hfirst']
        exact fun h ↦ nomatch h
      · rw [hretries, herrors]
        exact ⟨Nat.le_succ_of_le (hs.late hfirst).1, (hs.late hfirst).2⟩
    · rw [heq] at hview
      exact hsame hview rfl rfl rfl rfl rfl (hphase ht (by decide))
    · exact absurd (hfail.symm.trans hretry) Bool.false_ne_true
  | send hcall _ _ hview ht =>
    refine hsame hview rfl rfl rfl rfl rfl fun hphase' ↦ ?_
    obtain hpc | hpc | ⟨codecBuffer, info, hpc⟩ := nextCall_pc hcall
    · obtain ⟨-, ht⟩ | ⟨hne, -⟩ := ht
      · exact absurd (ht ▸ hphase') (by decide)
      · exact absurd hpc hne
    · exact .inl (by rw [hpc]; rfl)
    · exact .inr (by rw [hpc]; rfl)

theorem Retried.step (hs : s.Retried config) (hc : config.Shrinks) {l : Label} (hsmall : l.Small)
    (hstep : s.step config l = some t) : t.Retried config := by
  cases l with
  | reset reason =>
    obtain rfl := Option.some.inj hstep
    have hsame : ∀ u : State, u = s.reset reason → u.Retried config := by
      rintro _ rfl
      rw [reset]
      split <;> exact ⟨hs.constraints, hs.size, hs.early, hs.late⟩
    exact hsame _ rfl
  | setStopped =>
    obtain rfl := Option.some.inj hstep
    exact ⟨hs.constraints, hs.size, hs.early, hs.late⟩
  | thread answer => exact hs.advance hc hsmall hstep

theorem retried_start (config : Config) : (start config).Retried config :=
  ⟨.inl rfl, (fun h ↦ h.elim (fun h ↦ nomatch h) fun h ↦ nomatch h), (fun _ ↦ .inl rfl),
    fun h ↦ nomatch h⟩

/-- **Retries are bounded.** As long as no frame has come out of the codec, there are six retries at
most, and none at all unless the encoder may downsize and the capture accepts smaller sizes. After a
frame, there are two retries at most before the next. -/
theorem retries_bounded {config : Config} (hc : config.Shrinks) {labels : List Label} {s : State}
    (hsmall : ∀ l ∈ labels, l.Small) (h : exec (State.step config) (start config) labels = some s) :
    (s.firstFrameSent = false → s.retries ≤ 6 ∧
      (config.downsizeOnError = false ∨ config.acceptsConstraints = false → s.retries = 0)) ∧
    (s.firstFrameSent = true → s.retries ≤ 2) := by
  have hs : s.Retried config := exec_invariant_along (C := fun _ l ↦ l.Small)
    (fun _ _ _ hl hu hstep ↦ Retried.step hu hc hl hstep) (along_of_forall_mem hsmall)
    (retried_start config) h
  refine ⟨fun hfirst ↦ ?_, fun hfirst ↦ (hs.late hfirst).2⟩
  obtain hzero | ⟨hdownsize, haccepts, -, hle⟩ := hs.early hfirst
  · exact ⟨hzero ▸ Nat.zero_le _, fun _ ↦ hzero⟩
  · refine ⟨(Nat.le_add_right _ _).trans hle, ?_⟩
    rw [hdownsize, haccepts]
    rintro (h | h) <;> cases h

/-- The start, up to the first `consumeReset`. -/
def upToLoop : List Label := List.replicate 3 (.thread .returns)

/-- A pass in which the codec does not accept the format. -/
def failingPass (outputSize : Size) : List Label :=
  [.thread .returns, .thread (.size outputSize), .thread (.throws .illegalArgument 0)] ++
    List.replicate 7 (.thread .returns)

/-- A codec that fails twice before it has put out a frame. -/
theorem retries_bounded_twice : ∃ s,
    exec (step h264Screen) (start h264Screen)
      (upToLoop ++ (failingPass ⟨1080, 2400⟩ ++ failingPass ⟨1080, 2400⟩)) = some s ∧
      s.retries = 2 ∧ s.retries ≤ 6 := by
  obtain ⟨s, hs, hstate⟩ := (Option.any_eq_true _ _).1 (show (exec (step h264Screen)
    (start h264Screen) (upToLoop ++ (failingPass ⟨1080, 2400⟩ ++ failingPass ⟨1080, 2400⟩))).any
      (fun s ↦ s.retries = 2 ∧ s.firstFrameSent = false) = true by decide +kernel)
  obtain ⟨hretries, hfirst⟩ := of_decide_eq_true hstate
  have hc : h264Screen.Shrinks := by
    refine ⟨⟨by decide, by decide, by decide, ⟨?_, ?_, ?_, ?_⟩, ⟨?_, ?_, ?_, ?_⟩, by decide,
      by decide⟩, by decide⟩ <;> decide
  have hsmall : ∀ l ∈ upToLoop ++ (failingPass ⟨1080, 2400⟩ ++ failingPass ⟨1080, 2400⟩),
      l.Small := by
    rintro l hl outputSize rfl
    obtain rfl : outputSize = ⟨1080, 2400⟩ := by
      simpa [upToLoop, failingPass] using hl
    constructor <;> decide
  exact ⟨s, hs, hretries, ((retries_bounded hc hsmall hs).1 hfirst).1⟩

end State

end AllRelay.Video
