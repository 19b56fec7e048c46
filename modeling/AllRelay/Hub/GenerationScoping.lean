import AllRelay.Hub.Threads

/-!
# Screen generations scope the control routes

Whatever the interleaving of the goroutines of `Hub.Threads`, a route is written only in its own
generation and only until it is retired. The proof is an outline in the sense of `LockedThreads`:

* `ScopeInv` relates the log to the lifecycle fields, at every moment;
* the invariant of `displayMu` says that no route is open but the control route (`Retained`), so a
  retired route has been closed before the lock is given back;
* the assertions (`Point.Asserts`) say what an operation knows between its check under `controlMu`
  and its return: an operation that still holds `controlMu` knows that its generation is active, and
  an operation that detached a route under `displayMu` knows that nothing replaced it.
-/

namespace AllRelay.Hub

/-- What two events of the log, the first before the second, must not be: a write function invoked
in a generation that has ended, or on a retired route, or an automatic OFF after the ON of the same
session. -/
def Ordered : Event → Event → Prop
  | .ended g, .invoke _ g' _ => g' ≠ g
  | .retired r, .invoke r' _ _ => r' ≠ r
  | .invoke _ g (.display true), .invoke _ g' (.display false) => g' ≠ g
  | _, _ => True

/-- No allocated route is open but the given one. -/
def Retained (h : Hub) (route : Option RouteId) : Prop :=
  ∀ r < h.nextRoute, (h.route r).closed = false → route = some r

/-! ### The global invariant -/

/-- The invariant of the hub and the log. -/
structure ScopeInv (s : Shared) : Prop where
  /-- An open route is a route of the current generation. -/
  opened : ∀ r < s.hub.nextRoute, (s.hub.route r).closed = false →
    (s.hub.route r).generation = s.hub.screenGeneration
  /-- The control route is an open route of an active session. -/
  current : ∀ r, s.hub.controlRoute = some r →
    r < s.hub.nextRoute ∧ (s.hub.route r).closed = false ∧ s.hub.screenActive = true
  /-- A retired route is closed. -/
  retired : ∀ r, .retired r ∈ s.log → r < s.hub.nextRoute ∧ (s.hub.route r).closed = true
  /-- An ended generation is over, and as long as it is the last one no route is open. -/
  ended : ∀ g, .ended g ∈ s.log → g < s.hub.screenGeneration ∨
    g = s.hub.screenGeneration ∧ s.hub.screenActive = false ∧ Retained s.hub none
  /-- A generation whose display was restored is over. -/
  restored : ∀ r g, .invoke r g (.display true) ∈ s.log → g < s.hub.screenGeneration ∨
    g = s.hub.screenGeneration ∧ s.hub.screenActive = false
  /-- The events so far are in order. -/
  ordered : s.log.Pairwise Ordered

/-- Only an invocation can be out of order. -/
theorem ordered_of_not_invoke {a e : Event} (he : ∀ r g w, e ≠ .invoke r g w) : Ordered a e := by
  cases e with
  | invoke r g w => exact absurd rfl (he r g w)
  | _ =>
    cases a with
    | invoke r' g w => rcases w with (- | -) | - <;> exact trivial
    | _ => exact trivial

/-- An event is logged. -/
theorem ScopeInv.ordered_append {s : Shared} (hi : ScopeInv s) {e : Event}
    (he : ∀ a ∈ s.log, Ordered a e) : (s.log ++ [e]).Pairwise Ordered := by
  refine List.pairwise_append.2 ⟨hi.ordered, List.pairwise_singleton _ _, fun a ha b hb ↦ ?_⟩
  obtain rfl := List.mem_singleton.1 hb
  exact he a ha

theorem scopeInv_initial : ScopeInv ⟨newHub, []⟩ where
  opened r hr := absurd hr (Nat.not_lt_zero r)
  current r hr := by cases hr
  retired r hr := absurd hr List.not_mem_nil
  ended g hg := absurd hg List.not_mem_nil
  restored r g hr := absurd hr List.not_mem_nil
  ordered := List.Pairwise.nil

variable {s s' : Shared} {p p' : Point} {e : Choice}

theorem SameLifecycle.retained {h h' : Hub} (hs : SameLifecycle h h') {route : Option RouteId}
    (hr : Retained h route) : Retained h' route := by
  intro r hlt hopen
  rw [hs.nextRoute] at hlt
  rw [hs.closed] at hopen
  exact hr r hlt hopen

/-- A step that touches neither the lifecycle nor the log keeps the invariant. -/
theorem ScopeInv.of_same (hi : ScopeInv s) (hs : SameLifecycle s.hub s'.hub)
    (hlog : s'.log = s.log) : ScopeInv s' := by
  constructor
  case opened =>
    intro r hr ho
    rw [hs.nextRoute] at hr
    rw [hs.closed] at ho
    rw [hs.routeGeneration, hs.generation]
    exact hi.opened r hr ho
  case current =>
    intro r hr
    rw [hs.controlRoute] at hr
    rw [hs.nextRoute, hs.closed, hs.active]
    exact hi.current r hr
  case retired =>
    intro r hr
    rw [hlog] at hr
    rw [hs.nextRoute, hs.closed]
    exact hi.retired r hr
  case ended =>
    intro g hg
    rw [hlog] at hg
    rw [hs.generation, hs.active]
    exact (hi.ended g hg).imp_right fun ⟨hg, ha, hret⟩ ↦ ⟨hg, ha, hs.retained hret⟩
  case restored =>
    intro r g hr
    rw [hlog] at hr
    rw [hs.generation, hs.active]
    exact hi.restored r g hr
  case ordered =>
    rw [hlog]
    exact hi.ordered

/-- An open route may be written on, if an automatic ON comes after the end of the session and an
automatic OFF before it. -/
theorem ScopeInv.invoke (hi : ScopeInv s) {r : RouteId} {w : RouteWrite}
    (hr : r < s.hub.nextRoute) (hopen : (s.hub.route r).closed = false)
    (hw : ∀ on, w = .display on → s.hub.screenActive = !on) : ScopeInv (s.invoke r w) := by
  have hgen := hi.opened r hr hopen
  constructor
  case opened => exact hi.opened
  case current => exact hi.current
  case retired =>
    intro r' hr'
    refine hi.retired r' ?_
    simpa [Shared.invoke] using hr'
  case ended =>
    intro g hg
    refine hi.ended g ?_
    simpa [Shared.invoke] using hg
  case restored =>
    intro r' g hr'
    rcases List.mem_append.1 hr' with hr' | hr'
    · exact hi.restored r' g hr'
    · rw [List.mem_singleton, Event.invoke.injEq] at hr'
      obtain ⟨rfl, rfl, rfl⟩ := hr'
      exact Or.inr ⟨hgen, hw true rfl⟩
  case ordered =>
    refine hi.ordered_append fun a ha ↦ ?_
    cases a with
    | ended g =>
      show (s.hub.route r).generation ≠ g
      rcases hi.ended g ha with hlt | ⟨-, -, hret⟩
      · omega
      · cases hret r hr hopen
    | retired r' =>
      rintro rfl
      rw [(hi.retired r ha).2] at hopen
      cases hopen
    | invoke r' g w' =>
      rcases w' with (- | -) | - <;> rcases w with (- | -) | - <;> try exact trivial
      show (s.hub.route r).generation ≠ g
      rcases hi.restored r' g ha with hlt | ⟨-, hact⟩
      · omega
      · rw [hw false rfl] at hact
        cases hact

/-- Detaching the control route, with or without ending the session, keeps the invariant. -/
theorem ScopeInv.detach (hi : ScopeInv s) {h : Hub}
    (hgen : h.screenGeneration = s.hub.screenGeneration)
    (hnext : h.nextRoute = s.hub.nextRoute) (hroute : h.route = s.hub.route)
    (hnone : h.controlRoute = none) (hact : s.hub.screenActive = false → h.screenActive = false) :
    ScopeInv { s with hub := h } := by
  have hret : ∀ {route}, Retained s.hub route → Retained h route := fun hr r hlt ho ↦
    hr r (hnext ▸ hlt) (hroute ▸ ho)
  constructor
  case opened =>
    intro r hr ho
    dsimp only at hr ho ⊢
    rw [hnext] at hr
    rw [hroute] at ho ⊢
    rw [hgen]
    exact hi.opened r hr ho
  case current =>
    intro r hr
    dsimp only at hr
    rw [hnone] at hr
    cases hr
  case retired =>
    intro r hr
    dsimp only
    rw [hnext, hroute]
    exact hi.retired r hr
  case ended =>
    intro g hg
    dsimp only
    rw [hgen]
    exact (hi.ended g hg).imp_right fun ⟨hg, ha, hr⟩ ↦ ⟨hg, hact ha, hret hr⟩
  case restored =>
    intro r g hr
    dsimp only
    rw [hgen]
    exact (hi.restored r g hr).imp_right fun ⟨hg, ha⟩ ↦ ⟨hg, hact ha⟩
  case ordered => exact hi.ordered

theorem Retained.closeRoute {h : Hub} {route : Option RouteId} (hr : Retained h route)
    (r : RouteId) : Retained (h.closeRoute r) route := by
  intro r' hlt ho
  rw [closeRoute_closed, Bool.or_eq_false_iff] at ho
  exact hr r' hlt ho.2

/-- Closing the one open route leaves none. -/
theorem Retained.closeRoute_none {h : Hub} {r : RouteId} (hr : Retained h (some r)) :
    Retained (h.closeRoute r) none := by
  intro r' hlt ho
  rw [closeRoute_closed, Bool.or_eq_false_iff, decide_eq_false_iff_not] at ho
  exact absurd (Option.some.inj (hr r' hlt ho.2)).symm ho.1

/-- Closing a detached route keeps the invariant. -/
theorem ScopeInv.retire (hi : ScopeInv s) {r : RouteId} (hnone : s.hub.controlRoute = none)
    (hlt : r < s.hub.nextRoute) : ScopeInv (s.retire r) := by
  constructor
  case opened =>
    intro r' hr' ho
    rw [Shared.retire, closeRoute_closed, Bool.or_eq_false_iff] at ho
    exact (closeRoute_generation _ _ _).trans (hi.opened r' hr' ho.2)
  case current =>
    intro r' hr'
    exact absurd (show s.hub.controlRoute = some r' from hr') (by simp [hnone])
  case retired =>
    intro r' hr'
    have hclosed := closeRoute_closed s.hub r r'
    rcases List.mem_append.1 hr' with hmem | hmem
    · obtain ⟨hlt', hc⟩ := hi.retired r' hmem
      exact ⟨hlt', hclosed.trans (by rw [hc, Bool.or_true])⟩
    · rw [List.mem_singleton, Event.retired.injEq] at hmem
      subst hmem
      exact ⟨hlt, hclosed.trans (by simp)⟩
  case ended =>
    intro g hg
    refine (hi.ended g ?_).imp_right fun ⟨hg, ha, hret⟩ ↦ ⟨hg, ha, hret.closeRoute r⟩
    simpa [Shared.retire] using hg
  case restored =>
    intro r' g hr'
    refine hi.restored r' g ?_
    simpa [Shared.retire] using hr'
  case ordered =>
    exact hi.ordered_append fun a _ ↦ ordered_of_not_invoke nofun

/-- The return of an accepted `EndScreenSession` keeps the invariant. -/
theorem ScopeInv.logEnded (hi : ScopeInv s) (hact : s.hub.screenActive = false)
    (hret : Retained s.hub none) :
    ScopeInv { s with log := s.log ++ [.ended s.hub.screenGeneration] } := by
  constructor
  case opened => exact hi.opened
  case current => exact hi.current
  case retired =>
    intro r hr
    refine hi.retired r ?_
    simpa using hr
  case ended =>
    intro g hg
    rcases List.mem_append.1 hg with hg | hg
    · exact hi.ended g hg
    · rw [List.mem_singleton, Event.ended.injEq] at hg
      exact Or.inr ⟨hg, hact, hret⟩
  case restored =>
    intro r g hr
    refine hi.restored r g ?_
    simpa using hr
  case ordered =>
    exact hi.ordered_append fun a _ ↦ ordered_of_not_invoke nofun

/-- A new generation keeps the invariant when no route is open. -/
theorem ScopeInv.start (hi : ScopeInv s) (hret : Retained s.hub none) :
    ScopeInv { s with hub := s.hub.startGeneration } := by
  constructor
  case opened =>
    intro r hr ho
    cases hret r hr ho
  case current => exact fun r hr ↦ absurd hr (by simp [startGeneration, clearReplay])
  case retired => exact hi.retired
  case ended =>
    intro g hg
    have hle := hi.ended g hg
    refine Or.inl ?_
    show g < s.hub.screenGeneration + 1
    omega
  case restored =>
    intro r g hr
    have hle := hi.restored r g hr
    refine Or.inl ?_
    show g < s.hub.screenGeneration + 1
    omega
  case ordered => exact hi.ordered

/-- A route registered for the active generation keeps the invariant. -/
theorem ScopeInv.install (hi : ScopeInv s) {g : ℕ} (hacc : s.hub.accepts g = true) :
    ScopeInv { s with hub := s.hub.installRoute g } := by
  obtain ⟨ha, rfl⟩ := accepts_iff.1 hacc
  constructor
  case opened =>
    intro r hr ho
    rcases Nat.lt_succ_iff_lt_or_eq.1 hr with hlt | rfl
    · dsimp only at ho ⊢
      rw [installRoute_route_of_lt _ _ hlt] at ho ⊢
      exact hi.opened r hlt ho
    · simp [installRoute]
  case current =>
    intro r hr
    obtain rfl : s.hub.nextRoute = r := Option.some.inj hr
    exact ⟨Nat.lt_succ_self _, by simp [installRoute], ha⟩
  case retired =>
    intro r hr
    obtain ⟨hlt, hc⟩ := hi.retired r hr
    exact ⟨Nat.lt_succ_of_lt hlt, by rw [installRoute_route_of_lt _ _ hlt]; exact hc⟩
  case ended =>
    intro g hg
    rcases hi.ended g hg with hlt | ⟨-, hact, -⟩
    · exact Or.inl hlt
    · rw [ha] at hact
      cases hact
  case restored => exact hi.restored
  case ordered => exact hi.ordered

/-! ### The assertions -/

/-- What an operation knows of the route it detached. -/
structure Detached (h : Hub) (route : Option RouteId) : Prop where
  /-- There is no control route. -/
  none : h.controlRoute = none
  /-- No other route is open. -/
  retained : Retained h route
  /-- The detached route is allocated. -/
  lt : ∀ r, route = some r → r < h.nextRoute

/-- What the operation that closes a detached route knows of the session. -/
def Closer.Asserts (h : Hub) : Closer → Prop
  | .beginSession => h.screenActive = false
  | .endSession g => h.screenActive = false ∧ g = h.screenGeneration
  | .clear => True

/-- What a goroutine knows at a program point. -/
def Point.Asserts (s : Shared) : Point → Prop
  | .idle | .called _ => True
  | .entered _ => Retained s.hub s.hub.controlRoute
  | .caching g _ | .publishing g _ =>
    Retained s.hub s.hub.controlRoute ∧ s.hub.accepts g = true
  | .replacing g r | .turningOff g r | .sendingOff g r =>
    Retained s.hub s.hub.controlRoute ∧ s.hub.accepts g = true ∧ s.hub.controlRoute = some r
  | .clearing g route => Detached s.hub route ∧ Closer.Asserts s.hub (.endSession g)
  | .restoring closer route =>
    Detached s.hub route ∧ closer.Asserts s.hub ∧ s.hub.screenActive = false
  | .turningOn closer r =>
    Detached s.hub (some r) ∧ closer.Asserts s.hub ∧ s.hub.screenActive = false
  | .sendingOn closer r =>
    Detached s.hub (some r) ∧ closer.Asserts s.hub ∧ (s.hub.route r).closed = false
  | .closing closer route => Detached s.hub route ∧ closer.Asserts s.hub
  | .starting => s.hub.controlRoute = none ∧ Retained s.hub none
  | .writing r _ => r < s.hub.nextRoute
  | .sendingInput r _ => r < s.hub.nextRoute ∧ (s.hub.route r).closed = false
  | .framing g _ => s.hub.accepts g = true

/-- The invariant of a free lock. -/
def Lock.Inv : Lock → Shared → Prop
  | .displayMu, s => Retained s.hub s.hub.controlRoute
  | _, _ => True

theorem SameLifecycle.detached {h h' : Hub} (hs : SameLifecycle h h') {route : Option RouteId}
    (hd : Detached h route) : Detached h' route :=
  ⟨hs.controlRoute.trans hd.none, hs.retained hd.retained, fun r hr ↦ hs.nextRoute ▸ hd.lt r hr⟩

theorem SameLifecycle.closer {h h' : Hub} (hs : SameLifecycle h h') {closer : Closer}
    (hc : closer.Asserts h) : closer.Asserts h' := by
  cases closer with
  | beginSession => exact hs.active.trans hc
  | endSession g => exact ⟨hs.active.trans hc.1, hc.2.trans hs.generation.symm⟩
  | clear => trivial

/-- The assertions speak of the lifecycle only. -/
theorem SameLifecycle.asserts (hs : SameLifecycle s.hub s'.hub) {q : Point} (hq : q.Asserts s) :
    q.Asserts s' := by
  have hret : Retained s.hub s.hub.controlRoute → Retained s'.hub s'.hub.controlRoute := fun hr ↦ by
    rw [hs.controlRoute]
    exact hs.retained hr
  cases q with
  | idle | called _ => trivial
  | entered op => exact hret hq
  | caching g _ | publishing g _ => exact ⟨hret hq.1, (hs.accepts g).trans hq.2⟩
  | replacing g r | turningOff g r | sendingOff g r =>
    exact ⟨hret hq.1, (hs.accepts g).trans hq.2.1, hs.controlRoute.trans hq.2.2⟩
  | clearing g route => exact ⟨hs.detached hq.1, hs.closer hq.2⟩
  | restoring closer route | turningOn closer r =>
    exact ⟨hs.detached hq.1, hs.closer hq.2.1, hs.active.trans hq.2.2⟩
  | sendingOn closer r => exact ⟨hs.detached hq.1, hs.closer hq.2.1, (hs.closed r).trans hq.2.2⟩
  | closing closer route => exact ⟨hs.detached hq.1, hs.closer hq.2⟩
  | starting => exact ⟨hs.controlRoute.trans hq.1, hs.retained hq.2⟩
  | writing r data =>
    show r < s'.hub.nextRoute
    rw [hs.nextRoute]
    exact hq
  | sendingInput r data =>
    show r < s'.hub.nextRoute ∧ _
    rw [hs.nextRoute, hs.closed]
    exact hq
  | framing g data => exact (hs.accepts g).trans hq

/-! ### One step -/

/-- What a step has to establish for the goroutine that takes it. -/
structure Establishes (p : Point) (s' : Shared) (p' : Point) : Prop where
  /-- The global invariant. -/
  inv : ScopeInv s'
  /-- The assertion at the next point. -/
  asserts : p'.Asserts s'
  /-- The invariant of `displayMu`, if the step gives it back. -/
  released : p.holds .displayMu = true → p'.holds .displayMu = false →
    Retained s'.hub s'.hub.controlRoute

/-- A step to a point where `displayMu` is held. -/
theorem Establishes.of_holds (hi : ScopeInv s') (ha : p'.Asserts s')
    (hp : p'.holds .displayMu = true) : Establishes p s' p' :=
  ⟨hi, ha, fun _ h ↦ by rw [hp] at h; cases h⟩

/-- A return with `displayMu` held. -/
theorem Establishes.of_return (hi : ScopeInv s') (hr : Retained s'.hub s'.hub.controlRoute) :
    Establishes p s' .idle :=
  ⟨hi, trivial, fun _ _ ↦ hr⟩

/-- A step that does not hold `displayMu`. -/
theorem Establishes.of_outside (hi : ScopeInv s') (ha : p'.Asserts s')
    (hp : p.holds .displayMu = false) : Establishes p s' p' :=
  ⟨hi, ha, fun h ↦ by rw [hp] at h; cases h⟩

/-- The allocation of a route, once no route is open. -/
theorem establishes_install (hi : ScopeInv s) (hret : Retained s.hub none) {g : ℕ}
    (hacc : s.hub.accepts g = true) : Establishes p (s.install g).1 (s.install g).2 := by
  have hret' : Retained (s.hub.installRoute g) (some s.hub.nextRoute) := by
    intro r hr ho
    rcases Nat.lt_succ_iff_lt_or_eq.1 hr with hlt | rfl
    · rw [installRoute_route_of_lt _ _ hlt] at ho
      cases hret r hlt ho
    · rfl
  simp only [Shared.install]
  split
  · exact .of_return (hi.install hacc) hret'
  · exact .of_holds (hi.install hacc) ⟨hret', hacc, rfl⟩ rfl

theorem establishes_entered {ok : Bool} {op : Op} (hi : ScopeInv s)
    (ha : Retained s.hub s.hub.controlRoute) (h : s.advance ok (.entered op) = some (s', p')) :
    Establishes (.entered op) s' p' := by
  have hdetach : ∀ {h : Hub}, h.controlRoute = none → h.route = s.hub.route →
      h.nextRoute = s.hub.nextRoute → Detached h s.hub.controlRoute := fun hnone hroute hnext ↦
    ⟨hnone, fun r hr ho ↦ ha r (hnext ▸ hr) (hroute ▸ ho),
      fun r hr ↦ hnext.symm ▸ (hi.current r hr).1⟩
  have hended : ScopeInv { s with hub := s.hub.endScreenSessionLocked.1 } :=
    hi.detach rfl rfl rfl rfl fun _ ↦ rfl
  cases op <;> simp only [Shared.advance] at h
  case beginSession =>
    split at h <;> cases h
    · exact .of_holds hended ⟨hdetach rfl rfl rfl, rfl, rfl⟩ rfl
    · rename_i hact
      have hnone : s.hub.controlRoute = none := by
        refine Option.eq_none_iff_forall_ne_some.2 fun r hr ↦ hact (hi.current r hr).2.2
      exact .of_holds hi ⟨hnone, hnone ▸ ha⟩ rfl
  case setSession g session =>
    cases h
    split
    · exact .of_holds hi ⟨ha, ‹_›⟩ rfl
    · exact .of_return hi ha
  case register g =>
    split at h
    · rename_i hacc
      split at h <;> cases h
      · exact .of_holds hi ⟨ha, hacc, ‹_›⟩ rfl
      · exact establishes_install hi (by simpa [*] using ha) hacc
    · cases h
      exact .of_return hi ha
  case clear route =>
    simp only [detachRoute] at h
    by_cases hr : s.hub.controlRoute = route
    · simp only [hr, if_true] at h
      cases h
      refine .of_holds (hi.detach rfl rfl rfl rfl id) ⟨?_, trivial⟩ rfl
      exact hr ▸ hdetach rfl rfl rfl
    · simp only [hr, if_false] at h
      cases h
      exact .of_return hi ha
  case endSession g =>
    split at h <;> cases h
    · obtain ⟨-, hg⟩ := accepts_iff.1 ‹_›
      exact .of_holds hended ⟨hdetach rfl rfl rfl, rfl, hg⟩ rfl
    · exact .of_return hi ha
  all_goals cases h

/-- The return of the operation that closed a detached route. -/
theorem establishes_closed (closer : Closer) (route : Option RouteId) (hi : ScopeInv s)
    (hnone : s.hub.controlRoute = none) (hret : Retained s.hub none) (hc : closer.Asserts s.hub) :
    Establishes (.closing closer route) (s.closed closer).1 (s.closed closer).2 := by
  cases closer with
  | beginSession => exact .of_holds hi ⟨hnone, hret⟩ rfl
  | endSession g =>
    obtain ⟨hact, rfl⟩ := hc
    refine .of_return (hi.logEnded hact hret) ?_
    show Retained s.hub s.hub.controlRoute
    rwa [hnone]
  | clear =>
    refine .of_return hi ?_
    show Retained s.hub s.hub.controlRoute
    rwa [hnone]

/-- **What one step establishes**, given the assertion at its point and the invariant of the lock it
acquires. -/
theorem next_establishes (h : Shared.next e s p = some (s', p')) (hi : ScopeInv s)
    (ha : p.Asserts s) (hl : ∀ l, p.needs = some l → l.Inv s) : Establishes p s' p' := by
  cases e with
  | call op =>
    cases p <;> cases h
    exact .of_outside hi trivial rfl
  | events clients client broadcast =>
    cases p <;> cases h
    exact .of_outside (hi.of_same ⟨rfl, rfl, rfl, rfl, fun _ ↦ rfl, fun _ ↦ rfl⟩ rfl) trivial rfl
  | proceed ok =>
    simp only [Shared.next] at h
    cases p with
    | idle => cases h
    | called op =>
      cases op <;> simp only [Shared.advance] at h
      case write data =>
        split at h <;> cases h
        · exact .of_outside hi trivial rfl
        · exact .of_outside hi (hi.current _ ‹_›).1 rfl
      case frame g data =>
        cases h
        refine .of_outside hi ?_ rfl
        split
        · assumption
        · trivial
      all_goals cases h; exact .of_outside hi (hl _ rfl) rfl
    | entered op => exact establishes_entered hi ha h
    | caching g session =>
      cases h
      have hs : SameLifecycle s.hub (s.hub.cacheSession session).markHeaderReady :=
        ⟨rfl, rfl, rfl, rfl, fun _ ↦ rfl, fun _ ↦ rfl⟩
      exact .of_holds (hi.of_same hs rfl) ⟨hs.retained ha.1, ha.2⟩ rfl
    | publishing g session =>
      obtain ⟨hret, hacc⟩ := ha
      have hs : SameLifecycle s.hub (s.hub.broadcastEvent (.screenSession session)) :=
        ⟨rfl, rfl, rfl, rfl, fun _ ↦ rfl, fun _ ↦ rfl⟩
      have hi' : ScopeInv ⟨_, s.log⟩ := hi.of_same hs rfl
      simp only [Shared.advance] at h
      split at h
      · split at h <;> cases h
        · split
          · exact .of_holds hi' ⟨hs.retained hret, hacc, ‹_›⟩ rfl
          · exact .of_return hi' hret
        · exact .of_return hi' hret
      · cases h
    | replacing g previous =>
      obtain ⟨hret, hacc, hcur⟩ := ha
      rw [hcur] at hret
      -- The close of the previous route is seen as a close of a detached one.
      have hd : ScopeInv { s with hub := { s.hub with controlRoute := none } } :=
        hi.detach rfl rfl rfl rfl id
      have hlt := (hi.current previous hcur).1
      have hinst := establishes_install (p := .replacing g previous) (hd.retire rfl hlt)
        (Retained.closeRoute_none hret) hacc
      cases h
      exact hinst
    | turningOff g r =>
      obtain ⟨hret, hacc, hcur⟩ := ha
      obtain ⟨hlt, hopen, hact⟩ := hi.current r hcur
      simp only [Shared.advance, hopen, Bool.false_eq_true, if_false] at h
      split at h <;> cases h
      · exact .of_return (hi.of_same ⟨rfl, rfl, rfl, rfl, fun _ ↦ rfl, fun _ ↦ rfl⟩ rfl) hret
      · refine .of_holds (hi.invoke hlt hopen fun on hon ↦ ?_) ⟨hret, hacc, hcur⟩ rfl
        cases hon
        exact hact
    | sendingOff g r =>
      obtain ⟨hret, hacc, hcur⟩ := ha
      have hs : SameLifecycle s.hub
          (((s.hub.recordWrite r (.display false) true).markOffSent r).setDisplayPowerOff true) :=
        have hmark := sameLifecycle_markOffSent s.hub r
        ⟨rfl, rfl, rfl, rfl, hmark.closed, hmark.routeGeneration⟩
      cases ok with
      | true =>
        cases h
        refine .of_return (hi.of_same hs rfl) ?_
        exact hs.retained hret
      | false =>
        cases h
        exact .of_return (hi.of_same ⟨rfl, rfl, rfl, rfl, fun _ ↦ rfl, fun _ ↦ rfl⟩ rfl) hret
    | clearing g route =>
      obtain ⟨hd, hact, hg⟩ := ha
      cases h
      have hs : SameLifecycle s.hub s.hub.clearReplay :=
        ⟨rfl, rfl, rfl, rfl, fun _ ↦ rfl, fun _ ↦ rfl⟩
      exact .of_holds (hi.of_same hs rfl) ⟨hs.detached hd, ⟨hact, hg⟩, hact⟩ rfl
    | restoring closer route =>
      obtain ⟨hd, hc, hact⟩ := ha
      simp only [Shared.advance] at h
      split at h
      · cases h
        exact .of_holds hi ⟨hd, hc⟩ (by simp [Point.holds])
      · split at h <;> cases h
        · exact .of_holds hi ⟨hd, hc⟩ (by simp [Point.holds])
        · exact .of_holds hi ⟨hd, hc, hact⟩ (by simp [Point.holds])
    | turningOn closer r =>
      obtain ⟨hd, hc, hact⟩ := ha
      simp only [Shared.advance] at h
      split at h <;> cases h
      · exact .of_holds hi ⟨hd, hc⟩ (by simp [Point.holds])
      · have hopen : (s.hub.route r).closed = false := Bool.eq_false_iff.2 ‹_›
        refine .of_holds (hi.invoke (hd.lt r rfl) hopen fun on hon ↦ ?_) ⟨hd, hc, hopen⟩
          (by simp [Point.holds])
        cases hon
        exact hact
    | sendingOn closer r =>
      obtain ⟨hd, hc, -⟩ := ha
      have hs : ∀ h : Hub, h = s.hub.recordWrite r (.display true) ok ∨
          h = (s.hub.recordWrite r (.display true) ok).setDisplayPowerOff false →
          SameLifecycle s.hub h := by
        rintro h (rfl | rfl) <;> exact ⟨rfl, rfl, rfl, rfl, fun _ ↦ rfl, fun _ ↦ rfl⟩
      cases ok with
      | true =>
        cases h
        have hs := hs _ (Or.inr rfl)
        exact .of_holds (hi.of_same hs rfl) ⟨hs.detached hd, hs.closer hc⟩ (by simp [Point.holds])
      | false =>
        cases h
        have hs := hs _ (Or.inl rfl)
        exact .of_holds (hi.of_same hs rfl) ⟨hs.detached hd, hs.closer hc⟩ (by simp [Point.holds])
    | closing closer route =>
      obtain ⟨hd, hc⟩ := ha
      cases route with
      | none =>
        have hest := establishes_closed closer none hi hd.none hd.retained hc
        rwa [Option.some.inj h] at hest
      | some r =>
        have hest := establishes_closed closer (some r) (hi.retire hd.none (hd.lt r rfl)) hd.none
          hd.retained.closeRoute_none (by cases closer <;> exact hc)
        rwa [Option.some.inj h] at hest
    | starting =>
      obtain ⟨-, hret⟩ := ha
      cases h
      exact .of_return (hi.start hret) hret
    | writing r data =>
      simp only [Shared.advance] at h
      split at h <;> cases h
      · exact .of_outside hi trivial rfl
      · have hopen : (s.hub.route r).closed = false := Bool.eq_false_iff.2 ‹_›
        exact .of_outside (hi.invoke ha hopen fun on hon ↦ by cases hon) ⟨ha, hopen⟩ rfl
    | sendingInput r data =>
      cases h
      exact .of_outside (hi.of_same ⟨rfl, rfl, rfl, rfl, fun _ ↦ rfl, fun _ ↦ rfl⟩ rfl) trivial rfl
    | framing g data =>
      cases h
      exact .of_outside (hi.of_same (sameLifecycle_publishFrame _ _) rfl) trivial rfl

/-- Closing a route needs its `writeMu`. -/
theorem next_closed (h : Shared.next e s p = some (s', p')) {r : RouteId}
    (hr : r < s.hub.nextRoute) (hneeds : p.needs ≠ some (.writeMu r)) :
    (s'.hub.route r).closed = (s.hub.route r).closed := by
  by_cases hd : p.holds .displayMu = false
  · exact (next_sameLifecycle h hd).closed r
  · cases e with
    | call op => cases p <;> cases h; rfl
    | events clients client broadcast => cases p <;> cases h; rfl
    | proceed ok =>
      simp only [Shared.next] at h
      cases p with
      | idle | called _ | writing _ _ | sendingInput _ _ | framing _ _ => simp [Point.holds] at hd
      | entered op =>
        cases op <;> simp only [Shared.advance, Shared.install, detachRoute] at h
        all_goals (repeat' split at h)
        all_goals cases h
        all_goals first | rfl | rw [installRoute_route_of_lt _ _ hr]
      | replacing g previous =>
        have hne : r ≠ previous := fun hr ↦ hneeds (by rw [hr]; rfl)
        cases h
        have hroute := installRoute_route_of_lt (s.hub.closeRoute previous) g hr
        have hclosed := closeRoute_closed s.hub previous r
        rw [← hroute] at hclosed
        exact hclosed.trans (by simp [hne])
      | closing closer route =>
        cases route with
        | none => cases closer <;> cases h <;> rfl
        | some r' =>
          have hne : r ≠ r' := fun hr ↦ hneeds (by rw [hr]; rfl)
          have hclosed : (((s.retire r').hub).route r).closed = (s.hub.route r).closed := by
            simp only [Shared.retire]
            rw [closeRoute_closed]
            simp [hne]
          cases closer <;> cases h <;> exact hclosed
      | sendingOff g r' =>
        have hs := (sameLifecycle_markOffSent s.hub r').closed r
        cases ok <;> cases h
        · rfl
        · exact hs
      | _ =>
        simp only [Shared.advance] at h
        repeat' split at h
        all_goals cases h <;> rfl

/-! ### The outline -/

/-- **The proof outline of the hub.** -/
theorem scoping_outline :
    hubThreads.ProofOutline ScopeInv Lock.Inv (fun p s ↦ p.Asserts s) where
  own h hi ha hl :=
    have hest := next_establishes h hi ha hl
    ⟨hest.inv, hest.asserts⟩
  release {e s p s' p'} h hi ha hl k hk hk' := by
    cases k with
    | displayMu =>
      rcases hk with hp | hneeds
      · exact (next_establishes h hi ha hl).released hp hk'
      · -- The lock that an operation takes first is held at its next point.
        cases e with
        | call op => cases p <;> cases h; cases hneeds
        | events clients client broadcast => cases p <;> cases h; cases hneeds
        | proceed ok =>
          cases p with
          | called op =>
            cases op <;> first | (cases h; cases hk') | cases hneeds
          | closing closer route => cases route <;> cases hneeds
          | _ => cases hneeds
    | controlMu => trivial
    | writeMu r => trivial
  lock {e s p s' p'} h _ _ k hk _ hR := by
    cases k with
    | displayMu =>
      have hs := next_sameLifecycle h hk
      show Retained s'.hub s'.hub.controlRoute
      rw [hs.controlRoute]
      exact hs.retained hR
    | controlMu => trivial
    | writeMu r => trivial
  thread {e s p s' p'} h _ _ q hq ha := by
    by_cases hd : p.holds .displayMu = false
    · exact (next_sameLifecycle h hd).asserts ha
    · -- The step holds `displayMu`, so the other goroutine is in no lifecycle operation.
      have hqd : q.holds .displayMu = false := hq.held .displayMu (Bool.not_eq_false _ ▸ hd)
      cases q with
      | idle | called op => trivial
      | writing r data => exact Nat.lt_of_lt_of_le ha (next_nextRoute_le h)
      | sendingInput r data =>
        have hneeds : p.needs ≠ some (.writeMu r) := fun hneeds ↦ by
          have hfree := hq.needed _ hneeds
          simp [hubThreads, Point.holds] at hfree
        exact ⟨Nat.lt_of_lt_of_le ha.1 (next_nextRoute_le h),
          (next_closed h ha.1 hneeds).trans ha.2⟩
      | framing g data =>
        have hneeds : p.needs ≠ some .controlMu := fun hneeds ↦ by
          have hfree := hq.needed _ hneeds
          simp [hubThreads, Point.holds] at hfree
        have hp : p.holds .controlMu = false := by
          refine Bool.eq_false_iff.2 fun hp ↦ ?_
          have hfree := hq.held _ hp
          simp [hubThreads, Point.holds] at hfree
        exact (next_accepts h hp hneeds g).trans ha
      | _ => simp [Point.holds] at hqd

theorem sound_initial {c : Goroutines} (hc : Initial c) :
    hubThreads.Sound ScopeInv Lock.Inv (fun p s ↦ p.Asserts s) c := by
  subst hc
  refine ⟨fun k t ↦ ?_, scopeInv_initial, fun k _ ↦ ?_, fun t ↦ trivial⟩
  · simp [hubThreads, Point.holds]
  · cases k with
    | displayMu => exact fun r hr ↦ absurd hr (Nat.not_lt_zero r)
    | controlMu => trivial
    | writeMu r => trivial

/-! ### Generation scoping -/

/-- A route was allocated and is not retired. -/
def OpenRoute (h : Hub) (r : RouteId) : Prop :=
  r < h.nextRoute ∧ (h.route r).closed = false

/-- The holder of `displayMu` knows of every open route. -/
theorem Point.Asserts.retained (ha : p.Asserts s) (hp : p.holds .displayMu = true) :
    ∃ route, Retained s.hub route := by
  cases p with
  | idle | called _ | writing _ _ | sendingInput _ _ | framing _ _ => simp [Point.holds] at hp
  | entered op => exact ⟨_, ha⟩
  | caching g session | publishing g session => exact ⟨_, ha.1⟩
  | replacing g r | turningOff g r | sendingOff g r => exact ⟨_, ha.1⟩
  | starting => exact ⟨_, ha.2⟩
  | _ => exact ⟨_, ha.1.retained⟩

/-- A step of a call either changes nothing, or its generation is the current one. -/
theorem next_eq_or_current (h : Shared.next e s p = some (s', p')) (ha : p.Asserts s) {g : ℕ}
    (hg : p.generation = some g) : s' = s ∨
      g = s.hub.screenGeneration ∧ (s.hub.screenActive = true ∨ p.Ending) := by
  have haccepts : s.hub.accepts g = true →
      g = s.hub.screenGeneration ∧ (s.hub.screenActive = true ∨ p.Ending) := fun hacc ↦
    ⟨(accepts_iff.1 hacc).2, Or.inl (accepts_iff.1 hacc).1⟩
  cases p with
  | idle => cases hg
  | called op =>
    cases e with
    | call op' => cases h
    | events clients client broadcast => cases h
    | proceed ok => cases op <;> cases hg <;> cases h <;> exact Or.inl rfl
  | entered op =>
    cases e with
    | call op' => cases h
    | events clients client broadcast => cases h
    | proceed ok =>
      by_cases hacc : s.hub.accepts g = true
      · exact Or.inr (haccepts hacc)
      · cases op <;> cases hg <;>
          simp only [Shared.next, Shared.advance, hacc, Bool.false_eq_true, if_false] at h <;>
          cases h <;> exact Or.inl rfl
  | caching g' session | publishing g' session =>
    cases hg
    exact Or.inr (haccepts ha.2)
  | replacing g' r | turningOff g' r | sendingOff g' r =>
    cases hg
    exact Or.inr (haccepts ha.2.1)
  | framing g' data =>
    cases hg
    exact Or.inr (haccepts ha)
  | clearing g' route =>
    cases hg
    exact Or.inr ⟨ha.2.2, Or.inr trivial⟩
  | restoring closer route | turningOn closer r | sendingOn closer r =>
    cases closer <;> cases hg
    exact Or.inr ⟨ha.2.1.2, Or.inr trivial⟩
  | closing closer route =>
    cases closer <;> cases hg
    exact Or.inr ⟨ha.2.2, Or.inr trivial⟩
  | starting | writing r data | sendingInput r data => cases hg

/-- **Generation scoping.** In every interleaving of any number of goroutines: at most one route is
open, and it belongs to the current generation; no write function is invoked in an ended generation
or on a retired route, and no automatic OFF comes after the ON of its session (`Ordered`); and a
step of a call with a generation changes nothing, unless that generation is the active one or the
call is the `EndScreenSession` that was accepted for it. -/
theorem generation_scoping {c : Goroutines}
    (hc : LabelledSystem.Reachable Initial hubThreads.step c) :
    (∀ r r', OpenRoute c.shared.hub r → OpenRoute c.shared.hub r' → r = r') ∧
    (∀ r, OpenRoute c.shared.hub r →
      (c.shared.hub.route r).generation = c.shared.hub.screenGeneration) ∧
    c.shared.log.Pairwise Ordered ∧
    ∀ t e c' g, (c.point t).generation = some g → hubThreads.step c (t, e) = some c' →
      c'.shared = c.shared ∨ g = c.shared.hub.screenGeneration ∧
        (c.shared.hub.screenActive = true ∨ (c.point t).Ending) := by
  have hs := scoping_outline.reachable (fun _ ↦ sound_initial) hc
  have hret : ∃ route, Retained c.shared.hub route := by
    cases hholder : c.holder .displayMu with
    | none => exact ⟨_, hs.free _ hholder⟩
    | some t => exact (hs.assertion t).retained ((hs.mutex _ _).1 hholder)
  obtain ⟨route, hret⟩ := hret
  refine ⟨fun r r' hr hr' ↦ ?_, fun r hr ↦ hs.global.opened r hr.1 hr.2, hs.global.ordered, ?_⟩
  · have heq : some r = some r' := (hret r hr.1 hr.2).symm.trans (hret r' hr'.1 hr'.2)
    exact Option.some.inj heq
  · intro t e c' g hg hstep
    obtain ⟨-, s', p', hnext, rfl⟩ := hubThreads.step_eq_some_iff.1 hstep
    exact next_eq_or_current hnext (hs.assertion t) hg

/-- A goroutine fetches a route, and the session ends before it writes. -/
def fetchedBeforeEnd : List (ℕ × Choice) :=
  let begin' := (0, .call .beginSession) :: List.replicate 3 (0, .proceed true)
  let register := (0, .call (.register 1)) :: List.replicate 2 (0, .proceed true)
  let header := (0, .call (.setSession 1 ⟨1080, 2400⟩)) :: List.replicate 6 (0, .proceed true)
  let fetch := [(1, .call (.write [4])), (1, .proceed true)]
  let stop := (0, .call (.endSession 1)) :: List.replicate 7 (0, .proceed true)
  begin' ++ register ++ header ++ fetch ++ stop ++ [(1, .proceed true)]

/-- The route is written OFF and ON and then retired, and the late write does not reach it. -/
theorem generation_scoping_fetched :
    ∃ c, LabelledSystem.exec hubThreads.step ⟨⟨newHub, []⟩, fun _ ↦ .idle, fun _ ↦ none⟩
        fetchedBeforeEnd = some c ∧ c.point 1 = .idle ∧
      c.shared.log = [.invoke 0 1 (.display false), .invoke 0 1 (.display true), .retired 0,
        .ended 1] ∧
      c.shared.log.Pairwise Ordered := by
  have hrun : (LabelledSystem.exec hubThreads.step
      ⟨⟨newHub, []⟩, fun _ ↦ .idle, fun _ ↦ none⟩ fetchedBeforeEnd).map
        (fun c ↦ (c.point 1, c.shared.log)) =
      some (.idle, [.invoke 0 1 (.display false), .invoke 0 1 (.display true), .retired 0,
        .ended 1]) := by
    decide
  obtain ⟨c, hc, hlog⟩ := Option.map_eq_some_iff.1 hrun
  obtain ⟨hpoint, hlog⟩ := Prod.mk.inj hlog
  exact ⟨c, hc, hpoint, hlog, (generation_scoping ⟨_, _, rfl, hc⟩).2.2.1⟩

end AllRelay.Hub
