import AllRelay.Library.LabelledSystem
import Mathlib.Data.Int.Notation
import Mathlib.Data.List.Basic
import Mathlib.Tactic.TypeStar

/-!
# The fold override

On a folded phone `FoldManager.prepareScreenSession` asks the platform for a device-state override
to a fully opened state, and closing the session cancels it. The platform keeps at most one
override, of whatever process: a request replaces it and a cancellation removes it. Which process an
override belongs to is not asked of the platform. `FoldManager` infers it from `overrideActiveByUs`:
an override found while the flag is down is another process's, to be borrowed or respected.

So the flag must be up while a request of ours is outstanding. The `finally` blocks that lower it do
so whether or not the cancellation went through.
-/

open LabelledSystem

namespace AllRelay.Phone

/-- The override that the platform keeps. -/
inductive Override where
  /-- Requested by this process. -/
  | ours (id : ℤ)
  /-- Requested by another process; `prior` if this process did not hold one then. -/
  | other (id : ℤ) (prior : Bool)
deriving DecidableEq, Repr

/-- The state an override asks for. -/
def Override.stateId : Override → ℤ
  | .ours id => id
  | .other id _ => id

/-- What `dumpsys device_state` prints. -/
inductive Dumpsys where
  /-- Nothing: it failed, or timed out. -/
  | empty
  /-- Whether an override is active, without the state it asks for. -/
  | withoutId
  /-- All of it. -/
  | full
deriving DecidableEq, Repr

/-- `parseOverrideActive`, on what is printed while `device` is the override. -/
def parseOverrideActive (text : Dumpsys) (device : Option Override) : Bool :=
  match text with
  | .empty => false
  | .withoutId | .full => device.isSome

/-- `parseOverrideStateId`. -/
def parseOverrideStateId (text : Dumpsys) (device : Option Override) : Option ℤ :=
  match text with
  | .empty | .withoutId => none
  | .full => device.map Override.stateId

/-- How a call of `cancelStateRequest` goes. -/
inductive Cancel where
  /-- The platform cancels the override. -/
  | done
  /-- There is no device-state manager, which is not an error. -/
  | noManager
  /-- The platform throws. -/
  | throws
deriving DecidableEq, Repr

/-- How the platform calls of `ensureDisplayOffAndAwake` go. -/
structure Display where
  /-- `setDisplayPower` succeeds. -/
  powerOff : Bool
  /-- `isScreenOn`. -/
  screenOn : Bool
  /-- `setDisplayPower` succeeds after the wake up. -/
  powerOffAgain : Bool
deriving DecidableEq, Repr

/-- `ensureDisplayOffAndAwake` returns normally. -/
def Display.ensureOffAndAwake (d : Display) : Bool :=
  d.powerOff && (d.screenOn || d.powerOffAgain)

/-- How the platform calls of `prepareScreenSession` go. -/
structure Platform where
  /-- `isPhysicallyFolded`. -/
  folded : Bool
  /-- The device-state service is found. -/
  service : Bool
  /-- `findOpenedStateId`; `-1` if there is none. -/
  openedId : ℤ
  /-- The output of `dumpsys device_state`. -/
  dumpsys : Dumpsys
  /-- `requestState` returns normally. -/
  request : Bool
  /-- The current states that are read until the deadline, `none` where the read fails. -/
  polls : List (Option ℤ)
  /-- `cancelStateRequest`, if it is called. -/
  cancel : Cancel
  /-- `ensureDisplayOffAndAwake`. -/
  display : Display
deriving DecidableEq, Repr

/-- The loop that waits for the request to commit. -/
def verifyCommit (openedId : ℤ) : List (Option ℤ) → Bool
  | [] => false
  | some currentId :: polls => currentId = openedId || verifyCommit openedId polls
  | none :: polls => verifyCommit openedId polls

/-- The request of `prepareScreenSession` commits before the deadline. -/
def Platform.committed (p : Platform) : Bool :=
  verifyCommit p.openedId p.polls

/-- `FoldManager`, and the device it runs on. -/
structure FoldManager where
  /-- `overrideActiveByUs`. -/
  overrideActiveByUs : Bool
  /-- The override of the device. -/
  device : Option Override
  /-- The sessions returned so far: whether `close` releases the override. -/
  sessions : List Bool
  /-- History: this process ended an override that was active before it requested one. -/
  lost : Bool
deriving DecidableEq, Repr

namespace FoldManager

/-- The process starts, with at most an override of another process on the device. -/
def start (external : Option ℤ) : FoldManager :=
  ⟨false, external.map (.other · true), [], false⟩

/-- `requestState`, when the platform accepts it: the request ends the override that was active. -/
def requestState (s : FoldManager) (id : ℤ) : FoldManager :=
  { s with
    device := some (.ours id)
    lost := s.lost || match s.device with
      | some (.other _ _) => true
      | _ => false }

/-- `cancelStateRequest`. -/
def cancelStateRequest (s : FoldManager) : Cancel → FoldManager
  | .done =>
    { s with
      device := none
      lost := s.lost || match s.device with
        | some (.other _ prior) => prior
        | _ => false }
  | .noManager => s
  | .throws => s

/-- The end of `prepareScreenSession`, after the fold override. -/
def prepareDisplay (s : FoldManager) (p : Platform) (foldOverrideAcquired : Bool) : FoldManager :=
  if p.display.ensureOffAndAwake then { s with sessions := s.sessions ++ [foldOverrideAcquired] }
  else if foldOverrideAcquired then
    { s.cancelStateRequest p.cancel with overrideActiveByUs := false }
  else s

/-- `prepareScreenSession`. Where the code throws, no session is returned. -/
def prepareScreenSession (s : FoldManager) (p : Platform) : FoldManager :=
  if !p.folded || !p.service then s.prepareDisplay p false
  else if p.openedId = -1 then s
  else if parseOverrideActive p.dumpsys s.device && !s.overrideActiveByUs then
    -- An external override: it is borrowed if it asks for the same state.
    if parseOverrideStateId p.dumpsys s.device = some p.openedId then s.prepareDisplay p false
    else s
  else if !p.request then s
  else if !p.committed then (s.requestState p.openedId).cancelStateRequest p.cancel
  else { s.requestState p.openedId with overrideActiveByUs := true }.prepareDisplay p true

/-- `releaseFoldOverride`. -/
def releaseFoldOverride (s : FoldManager) (cancel : Cancel) : FoldManager :=
  if !s.overrideActiveByUs then s
  else { s.cancelStateRequest cancel with overrideActiveByUs := false }

/-- What happens to the phone. -/
inductive Event where
  /-- `prepareScreenSession`. -/
  | prepare (p : Platform)
  /-- The session that was returned as the `i`-th is closed. -/
  | close (i : ℕ) (cancel : Cancel)
  /-- Another process requests an override. -/
  | overridden (id : ℤ)
  /-- The platform ends the override, or the process that requested it does. -/
  | dropped
deriving DecidableEq, Repr

/-- One event. -/
def step (s : FoldManager) : Event → Option FoldManager
  | .prepare p => some (s.prepareScreenSession p)
  | .close i cancel =>
    s.sessions[i]?.map fun acquired ↦ if acquired then s.releaseFoldOverride cancel else s
  | .overridden id => some { s with device := some (.other id !s.overrideActiveByUs) }
  | .dropped => some { s with device := none }

/-! ### Ownership -/

/-- An override that this process requested is active. -/
def Outstanding (s : FoldManager) : Prop :=
  ∃ id, s.device = some (.ours id)

/-- The flag does not forget an override of ours, and none of another process is lost. -/
structure Owned (s : FoldManager) : Prop where
  /-- With the flag down, nothing that this process requested is outstanding. -/
  not_outstanding : s.overrideActiveByUs = false → ¬s.Outstanding
  /-- No override that was active before this process requested one was ended by it. -/
  not_lost : s.lost = false

/-- With the flag up, an override of another process came after ours. -/
structure Inv (s : FoldManager) : Prop extends s.Owned where
  flag_of_prior : ∀ id, s.device = some (.other id true) → s.overrideActiveByUs = false

/-- An override of another process is active. -/
def Foreign (s : FoldManager) : Prop :=
  ∃ id prior, s.device = some (.other id prior)

/-- `prepareScreenSession` gets as far as a request that the platform accepts. -/
structure Requests (s : FoldManager) (p : Platform) : Prop where
  folded : p.folded = true
  service : p.service = true
  openedId : p.openedId ≠ -1
  /-- No override was seen, or the flag is up. -/
  unseen : parseOverrideActive p.dumpsys s.device = false ∨ s.overrideActiveByUs = true
  request : p.request = true

/-- After its request, `prepareScreenSession` cancels and leaves the flag down. -/
def CleansUp (s : FoldManager) (p : Platform) : Prop :=
  if p.committed then p.display.ensureOffAndAwake = false else s.overrideActiveByUs = false

/-- The condition on a step: no override of another process is requested away unseen, and a
cancellation that the flag relies on goes through. -/
def Keeps (s : FoldManager) : Event → Prop
  | .prepare p => s.Requests p → ¬s.Foreign ∧ (s.CleansUp p → p.cancel = .done)
  | .close i cancel =>
    s.sessions[i]? = some true → s.overrideActiveByUs = true → s.Outstanding → cancel = .done
  | .overridden _ => True
  | .dropped => True

/-! ### One call -/

theorem prepareDisplay_of_not_acquired (s : FoldManager) (p : Platform) :
    ∃ sessions, s.prepareDisplay p false = { s with sessions } := by
  unfold prepareDisplay
  split
  · exact ⟨_, rfl⟩
  · exact ⟨s.sessions, rfl⟩

/-- Without an accepted request, `prepareScreenSession` changes neither the flag nor the device. -/
theorem prepareScreenSession_of_not_requests {s : FoldManager} {p : Platform}
    (h : ¬s.Requests p) : ∃ sessions, s.prepareScreenSession p = { s with sessions } := by
  have hnone : ∃ sessions, s = { s with sessions } := ⟨s.sessions, rfl⟩
  unfold prepareScreenSession
  split_ifs with hfold hid hext hsame hreq
  · exact prepareDisplay_of_not_acquired s p
  · exact hnone
  · exact prepareDisplay_of_not_acquired s p
  · exact hnone
  · exact hnone
  -- What is left are the two paths after the request.
  all_goals
    refine absurd ⟨?_, ?_, hid, ?_, ?_⟩ h
    · simp_all
    · simp_all
    · simp_all
      grind
    · simp_all

/-- With an accepted request, it waits for the commit and prepares the display. -/
theorem prepareScreenSession_of_requests {s : FoldManager} {p : Platform} (h : s.Requests p) :
    s.prepareScreenSession p =
      if p.committed then
        { s.requestState p.openedId with overrideActiveByUs := true }.prepareDisplay p true
      else (s.requestState p.openedId).cancelStateRequest p.cancel := by
  have hext : (parseOverrideActive p.dumpsys s.device && !s.overrideActiveByUs) = false := by
    rcases h.unseen with hq | hq <;> simp [hq]
  unfold prepareScreenSession
  rw [hext, h.folded, h.service, h.request, if_neg h.openedId]
  rcases p.committed <;> rfl

theorem requestState_lost {s : FoldManager} (h : s.lost = false) (id : ℤ) :
    (s.requestState id).lost = true ↔ s.Foreign := by
  unfold requestState Foreign
  rcases s.device with _ | _ | ⟨i, prior⟩ <;> simp [h]

/-- A cancellation that does not go through changes nothing. -/
theorem cancelStateRequest_of_ne {c : Cancel} (h : c ≠ .done) (s : FoldManager) :
    s.cancelStateRequest c = s := by
  rcases c with _ | _ | _
  · exact absurd rfl h
  · rfl
  · rfl

@[simp]
theorem cancelStateRequest_flag (s : FoldManager) (c : Cancel) :
    (s.cancelStateRequest c).overrideActiveByUs = s.overrideActiveByUs := by
  rcases c with _ | _ | _ <;> rfl

/-- Cancelling a request of ours loses nothing. -/
@[simp]
theorem requestState_cancelStateRequest_lost (s : FoldManager) (id : ℤ) (c : Cancel) :
    ((s.requestState id).cancelStateRequest c).lost = (s.requestState id).lost := by
  rcases c with _ | _ | _
  · exact Bool.or_false _
  · rfl
  · rfl

/-- After a request, a cancellation leaves the device without an override or with ours. -/
theorem requestState_cancelStateRequest_device (s : FoldManager) (id : ℤ) (c : Cancel) :
    ((s.requestState id).cancelStateRequest c).device =
      if c = .done then none else some (.ours id) := by
  rcases c with _ | _ | _ <;> rfl

/-- The state after an accepted request, whatever follows it. -/
theorem prepareScreenSession_spec {s : FoldManager} {p : Platform} (h : s.Requests p) :
    (s.prepareScreenSession p).lost = (s.requestState p.openedId).lost ∧
      ((s.CleansUp p ∧ (s.prepareScreenSession p).overrideActiveByUs = false ∧
          (s.prepareScreenSession p).device =
            if p.cancel = .done then none else some (.ours p.openedId)) ∨
        (¬s.CleansUp p ∧ (s.prepareScreenSession p).overrideActiveByUs = true ∧
          ¬(s.prepareScreenSession p).Foreign)) := by
  have hdev := requestState_cancelStateRequest_device s p.openedId p.cancel
  have hlost := requestState_cancelStateRequest_lost s p.openedId p.cancel
  rw [prepareScreenSession_of_requests h]
  unfold CleansUp
  by_cases hcommit : p.committed = true
  · rw [if_pos hcommit, if_pos hcommit]
    unfold prepareDisplay
    by_cases hdisplay : p.display.ensureOffAndAwake = true
    · rw [if_pos hdisplay]
      refine ⟨rfl, Or.inr ⟨by simp [hdisplay], rfl, ?_⟩⟩
      rintro ⟨id, prior, hid⟩
      exact absurd hid (by simp [requestState])
    · rw [if_neg hdisplay, if_pos rfl]
      have hfalse : p.display.ensureOffAndAwake = false := by simpa using hdisplay
      -- The flag has been raised meanwhile, which the cancellation does not look at.
      refine ⟨?_, Or.inl ⟨hfalse, rfl, ?_⟩⟩
      · exact requestState_cancelStateRequest_lost { s with overrideActiveByUs := true } _ _
      · exact requestState_cancelStateRequest_device { s with overrideActiveByUs := true } _ _
  · rw [if_neg hcommit, if_neg hcommit]
    refine ⟨hlost, ?_⟩
    rw [cancelStateRequest_flag]
    rcases hflag : s.overrideActiveByUs with _ | _
    · exact Or.inl ⟨rfl, hflag, hdev⟩
    · refine Or.inr ⟨by simp, hflag, ?_⟩
      rintro ⟨id, prior, hid⟩
      rw [hdev] at hid
      split at hid <;> simp at hid

/-- Closing a session that releases the override. -/
theorem releaseFoldOverride_of_flag {s : FoldManager} (h : s.overrideActiveByUs = true)
    (c : Cancel) :
    s.releaseFoldOverride c = { s.cancelStateRequest c with overrideActiveByUs := false } := by
  unfold releaseFoldOverride
  rw [h]
  rfl

theorem cancelStateRequest_lost_of_flag {s : FoldManager} (hs : s.Inv)
    (h : s.overrideActiveByUs = true) (c : Cancel) : (s.cancelStateRequest c).lost = false := by
  rcases c with _ | _ | _
  · unfold cancelStateRequest
    rcases hdev : s.device with _ | _ | ⟨id, prior⟩
    · simp [hs.not_lost]
    · simp [hs.not_lost]
    · have hprior : prior = false := by
        by_contra hp
        have := hs.flag_of_prior id (by simpa [hdev] using hp)
        simp [this] at h
      simp [hs.not_lost, hprior]
  · exact hs.not_lost
  · exact hs.not_lost

/-! ### Runs -/

theorem start_inv (external : Option ℤ) : (start external).Inv where
  not_outstanding _ := by
    rintro ⟨id, h⟩
    rcases external with _ | _ <;> cases h
  not_lost := rfl
  flag_of_prior _ _ := rfl

/-- A step that meets the condition keeps the invariant. -/
theorem Inv.step {s t : FoldManager} {e : Event} (hC : s.Keeps e) (hs : s.Inv)
    (h : s.step e = some t) : t.Inv := by
  rcases e with p | ⟨i, cancel⟩ | id | _
  case prepare =>
    obtain rfl : s.prepareScreenSession p = t := Option.some.inj h
    by_cases hreq : s.Requests p
    · obtain ⟨hforeign, hcancel⟩ := hC hreq
      have hlost : (s.requestState p.openedId).lost = false := by
        by_contra hl
        exact hforeign ((requestState_lost hs.not_lost _).1 (by simpa using hl))
      obtain ⟨hl, ⟨hclean, hflag, hdev⟩ | ⟨-, hflag, hno⟩⟩ := prepareScreenSession_spec hreq
      · rw [if_pos (hcancel hclean)] at hdev
        refine ⟨⟨fun _ ↦ ?_, hl.trans hlost⟩, fun _ _ ↦ hflag⟩
        rintro ⟨id, hid⟩
        simp [hdev] at hid
      · refine ⟨⟨fun hf ↦ ?_, hl.trans hlost⟩, fun id hid ↦ absurd ⟨id, true, hid⟩ hno⟩
        simp [hflag] at hf
    · obtain ⟨sessions, hsame⟩ := prepareScreenSession_of_not_requests hreq
      rw [hsame]
      exact ⟨⟨hs.not_outstanding, hs.not_lost⟩, hs.flag_of_prior⟩
  case close =>
    obtain ⟨acquired, hacq, rfl⟩ := Option.map_eq_some_iff.1 h
    rcases acquired with _ | _
    · exact hs
    show (s.releaseFoldOverride cancel).Inv
    by_cases hflag : s.overrideActiveByUs = true
    · rw [releaseFoldOverride_of_flag hflag]
      refine ⟨⟨fun _ ↦ ?_, cancelStateRequest_lost_of_flag hs hflag cancel⟩, fun _ _ ↦ rfl⟩
      rintro ⟨id, hid⟩
      by_cases hdone : cancel = .done
      · rw [hdone] at hid
        simp [cancelStateRequest] at hid
      · rw [cancelStateRequest_of_ne hdone] at hid
        exact hdone (hC hacq hflag ⟨id, hid⟩)
    · unfold releaseFoldOverride
      rw [if_pos (by simpa using hflag)]
      exact hs
  case overridden =>
    obtain rfl := Option.some.inj h
    refine ⟨⟨fun _ ↦ ?_, hs.not_lost⟩, fun i hi ↦ ?_⟩
    · rintro ⟨i, hi⟩
      cases hi
    · obtain ⟨-, hflag⟩ : id = i ∧ s.overrideActiveByUs = false := by simpa using hi
      exact hflag
  case dropped =>
    obtain rfl := Option.some.inj h
    refine ⟨⟨fun _ ↦ ?_, hs.not_lost⟩, fun i hi ↦ by cases hi⟩
    rintro ⟨i, hi⟩
    cases hi

/-- A step that violates the condition forgets an override or loses one. -/
theorem Inv.not_owned_of_not_keeps {s : FoldManager} {e : Event} (hs : s.Inv)
    (hC : ¬s.Keeps e) : ∃ t, s.step e = some t ∧ ¬t.Owned := by
  rcases e with p | ⟨i, cancel⟩ | id | _
  case prepare =>
    refine ⟨_, rfl, fun ht ↦ hC fun hreq ↦ ?_⟩
    obtain ⟨hl, hrest⟩ := prepareScreenSession_spec hreq
    refine ⟨fun hforeign ↦ ?_, fun hclean ↦ ?_⟩
    · have hlost := (requestState_lost hs.not_lost p.openedId).2 hforeign
      exact absurd (ht.not_lost.symm.trans (hl.trans hlost)) (by simp)
    · by_contra hcancel
      obtain ⟨-, hflag, hdev⟩ | ⟨hno, -⟩ := hrest
      · rw [if_neg hcancel] at hdev
        exact ht.not_outstanding hflag ⟨_, hdev⟩
      · exact hno hclean
  case close =>
    obtain ⟨hacq, hflag, hout, hcancel⟩ : s.sessions[i]? = some true ∧
        s.overrideActiveByUs = true ∧ s.Outstanding ∧ cancel ≠ .done := by
      simpa [Keeps] using hC
    refine ⟨s.releaseFoldOverride cancel, by simp [FoldManager.step, hacq], fun ht ↦ ?_⟩
    rw [releaseFoldOverride_of_flag hflag, cancelStateRequest_of_ne hcancel] at ht
    exact ht.not_outstanding rfl hout
  case overridden => exact absurd trivial hC
  case dropped => exact absurd trivial hC

/-- **Fold override ownership.** Over any sequence of prepared and closed sessions, with whatever
outcome of the platform calls and whatever other processes do between the calls, `FoldManager` never
forgets an override of its own nor ends a prior one of another process exactly when every step keeps
to the condition: no override of another process goes unseen before an accepted request, and the
cancellations of an outstanding request that lower the flag go through. -/
theorem fold_override_ownership (external : Option ℤ) (es : List Event) :
    (∀ ms t, ms <+: es → exec step (start external) ms = some t → t.Owned) ↔
      Along step Keeps (start external) es :=
  throughout_iff_along (fun _ h ↦ h.toOwned) (fun _ _ _ hC hs h ↦ hs.step hC h)
    (fun _ _ hs hC ↦ hs.not_owned_of_not_keeps hC) (start_inv external)

/-- A folded phone whose state `3` is the opened one, where everything works but the
cancellation. -/
def uncancellable : Platform :=
  { folded := true
    service := true
    openedId := 3
    dumpsys := .full
    request := true
    polls := [some 0, some 3]
    cancel := .throws
    display := ⟨true, true, true⟩ }

/-- The session is closed while the platform throws: the flag goes down and the override stays. The
next session takes it for another process's, borrows it, and does not cancel it either. -/
theorem close_forgets_override :
    ∃ es t, exec step (start none) es = some t ∧ t.overrideActiveByUs = false ∧ t.Outstanding ∧
      ¬t.Owned := by
  refine ⟨[.prepare uncancellable, .close 0 .throws, .prepare uncancellable, .close 1 .done], _,
    rfl, rfl, ⟨3, rfl⟩, fun h ↦ ?_⟩
  exact h.not_outstanding rfl ⟨3, rfl⟩

end FoldManager

end AllRelay.Phone
