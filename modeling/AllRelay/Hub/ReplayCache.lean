import Mathlib.Data.List.DropRight
import AllRelay.Hub.Lifecycle

/-!
# The replay cache

For viewers that join late the hub keeps the header of the session, its last config frames and a key
frame. Each operation updates the cache in place. What a late viewer should get is a function of the
whole history (`History.reference`): of the frames that were accepted since the last reset, the last
four config frames and the most recent key frame.

The cache agrees with it but for two cases (`screenInitMessage_eq_reference_iff`): a key frame that
is too large to be kept leaves the key frame before it in the cache (`stale_key_frame`), and a frame
that is its flags alone is not kept.
-/

namespace AllRelay.Hub

/-! ### The history -/

/-- What a history of operations amounts to. -/
structure History where
  /-- The last generation. -/
  generation : ℕ
  /-- It has not ended. -/
  active : Bool
  /-- The header that was accepted at the last reset, if the reset was a header. -/
  session : Option ScreenSession
  /-- The frames that were accepted since the last reset. -/
  frames : List Bytes
deriving DecidableEq, Repr

namespace History

/-- No operation. -/
def empty : History := ⟨0, false, none, []⟩

/-- The generation is the current one. -/
def accepts (s : History) (generation : ℕ) : Bool :=
  s.active && generation == s.generation

/-- One more operation. -/
def next (s : History) : Op → History
  | .beginSession => ⟨s.generation + 1, true, none, []⟩
  | .setSession generation session =>
    if s.accepts generation then { s with session := some session, frames := [] } else s
  | .endSession generation =>
    if s.accepts generation then { s with active := false, session := none, frames := [] } else s
  | .frame generation data =>
    if s.accepts generation then { s with frames := s.frames ++ [data] } else s
  | .register _ | .clear _ | .write _ => s

/-- A history, with the outcomes of the display writes. -/
def of (ops : List (Op × Bool)) : History :=
  ops.foldl (fun s op ↦ s.next op.1) empty

end History

/-- A frame has a flag; the flags are its first byte. -/
def hasFlag (flag : UInt8) : Bytes → Bool
  | flags :: _ => flags &&& flag ≠ 0
  | [] => false

/-- There is something behind the flags. -/
def hasUnit (data : Bytes) : Bool :=
  1 < data.length

/-- A frame is small enough to be kept. -/
def fits (data : Bytes) : Bool :=
  data.length ≤ maxScreenReplayFrameBytes

namespace History

/-- The config frames since the last reset. -/
def configs (s : History) : List Bytes :=
  s.frames.filter (hasFlag 1)

/-- The key frames since the last reset. -/
def keyFrames (s : History) : List Bytes :=
  s.frames.filter (hasFlag 2)

/-- What a late viewer should get: the last four config frames, and the most recent key frame if it
is small enough. -/
def reference (s : History) : ScreenInit :=
  ⟨s.session, s.configs.rtake maxScreenReplayConfigFrames, s.keyFrames.getLast?.filter fits⟩

/-- The hub can keep a key frame. -/
def keepsKey (data : Bytes) : Bool :=
  hasUnit data && fits data

/-- The last four config frames are more than their flags; and so is the most recent key frame if it
is small enough, and if it is too large, then there is no key frame that the hub can keep. -/
structure Keepable (s : History) : Prop where
  configs : ∀ data ∈ s.configs.rtake maxScreenReplayConfigFrames, hasUnit data = true
  keyFrame : ∀ data ∈ s.keyFrames.getLast?, if fits data then hasUnit data = true else
    ∀ data' ∈ s.keyFrames, keepsKey data' = false

end History

/-- The hub after a sequence of operations on a new hub. -/
def performAll (ops : List (Op × Bool)) : Hub :=
  ops.foldl (fun h op ↦ h.perform op.2 op.1) newHub

/-! ### Windows -/

variable {α : Type*}

/-- The window of a list that grows at its end. -/
theorem rtake_rtake_concat (l : List α) (x : α) (n : ℕ) :
    (l.rtake n ++ [x]).rtake n = (l ++ [x]).rtake n := by
  induction n with
  | zero => rw [List.rtake_zero, List.rtake_zero]
  | succ n _ =>
    rw [List.rtake_concat_succ, List.rtake_concat_succ, List.rtake_eq_reverse_take_reverse,
      List.rtake_eq_reverse_take_reverse, List.rtake_eq_reverse_take_reverse, List.reverse_reverse,
      List.take_take, Nat.min_eq_left (Nat.le_succ n)]

/-- What two filters leave of a list that grows at its end. -/
theorem filter_filter_concat (l : List α) (x : α) (p q : α → Bool) :
    ((l ++ [x]).filter p).filter q = (l.filter p).filter q ++ if p x && q x then [x] else [] := by
  rw [List.filter_append, List.filter_append]
  congr 1
  cases hp : p x <;> cases hq : q x <;> simp [hp, hq]

theorem mem_of_mem_rtake {l : List α} {n : ℕ} {x : α} (h : x ∈ l.rtake n) : x ∈ l :=
  List.mem_of_mem_drop h

/-- The window of the items that are kept is the window, exactly when all of it is kept. -/
theorem rtake_filter_eq_iff (l : List α) (kept : α → Bool) (n : ℕ) :
    (l.filter kept).rtake n = l.rtake n ↔ ∀ x ∈ l.rtake n, kept x = true := by
  constructor
  · intro h x hx
    exact List.of_mem_filter (mem_of_mem_rtake (h ▸ hx))
  · intro h
    induction l using List.reverseRecOn generalizing n with
    | nil => rfl
    | append_singleton l x ih =>
      cases n with
      | zero => rw [List.rtake_zero, List.rtake_zero]
      | succ n =>
        rw [List.rtake_concat_succ, List.forall_mem_append, List.forall_mem_singleton] at h
        rw [List.filter_append, List.filter_cons_of_pos h.2, List.filter_nil,
          List.rtake_concat_succ, List.rtake_concat_succ, ih n h.1]

/-- Of the items that are kept, all of them small, the last is the last item if that is small,
exactly when that is kept, or it is not small and nothing is kept. -/
theorem getLast?_filter_eq_iff (l : List α) (kept small : α → Bool)
    (hsmall : ∀ x, kept x = true → small x = true) :
    (l.filter kept).getLast? = l.getLast?.filter small ↔
      ∀ x ∈ l.getLast?, if small x then kept x = true else ∀ y ∈ l, kept y = false := by
  induction l using List.reverseRecOn with
  | nil => simp
  | append_singleton l x _ =>
    rw [List.filter_append, List.getLast?_concat, Option.filter_some]
    cases hkept : kept x with
    | true => simp [hkept, hsmall x hkept]
    | false =>
      cases hx : small x with
      | false => simp [hkept, hx, or_imp, forall_and]
      | true =>
        -- The last item is small, but not kept; what is kept is another one.
        have hne : (l.filter kept).getLast? ≠ some x := fun h ↦
          absurd (List.of_mem_filter (List.mem_of_getLast? h)) (by rw [hkept]; decide)
        simpa [hkept, hx] using hne

/-! ### The hub and its history -/

/-- The hub and the history agree; the hub keeps the last config frames that are more than their
flags, and the last key frame that it can keep. -/
structure Remembers (h : Hub) (s : History) : Prop where
  generation : h.screenGeneration = s.generation
  active : h.screenActive = s.active
  session : h.screenSession = s.session
  configs : h.screenConfigFrames = (s.configs.filter hasUnit).rtake maxScreenReplayConfigFrames
  keyFrame : h.screenKeyFrame = (s.keyFrames.filter History.keepsKey).getLast?

variable {h h' : Hub} {s : History}

/-- Nothing that concerns late viewers changes. -/
structure SameReplay (h h' : Hub) : Prop where
  generation : h'.screenGeneration = h.screenGeneration
  active : h'.screenActive = h.screenActive
  session : h'.screenSession = h.screenSession
  configs : h'.screenConfigFrames = h.screenConfigFrames
  keyFrame : h'.screenKeyFrame = h.screenKeyFrame

theorem SameReplay.remembers (hsame : SameReplay h h') (hs : Remembers h s) : Remembers h' s where
  generation := hsame.generation.trans hs.generation
  active := hsame.active.trans hs.active
  session := hsame.session.trans hs.session
  configs := hsame.configs.trans hs.configs
  keyFrame := hsame.keyFrame.trans hs.keyFrame

theorem SameReplay.trans {h'' : Hub} (h₁ : SameReplay h h') (h₂ : SameReplay h' h'') :
    SameReplay h h'' where
  generation := h₂.generation.trans h₁.generation
  active := h₂.active.trans h₁.active
  session := h₂.session.trans h₁.session
  configs := h₂.configs.trans h₁.configs
  keyFrame := h₂.keyFrame.trans h₁.keyFrame

/-- Closing a route leaves the cache alone. -/
theorem sameReplay_close (h : Hub) (route : Option RouteId) : SameReplay h (h.close route) := by
  rw [close_eq]
  exact ⟨rfl, rfl, rfl, rfl, rfl⟩

/-- So do the automatic display writes. -/
theorem sameReplay_restoreDisplay (h : Hub) (route : Option RouteId) (ok : Bool) :
    SameReplay h (h.restoreDisplay route ok).1 := by
  obtain ⟨_, he, -⟩ | ⟨_, -, -, -, he⟩ | ⟨_, -, -, -, he⟩ := h.restoreDisplay_cases route ok <;>
    rw [he] <;> exact ⟨rfl, rfl, rfl, rfl, rfl⟩

theorem sameReplay_turnDisplayOff (h : Hub) (r : RouteId) (ok : Bool) :
    SameReplay h (h.turnDisplayOff r ok).1 := by
  rw [turnDisplayOff, sendDisplayOff]
  split_ifs <;> exact ⟨rfl, rfl, rfl, rfl, rfl⟩

theorem sameReplay_registerControlRoute (h : Hub) (generation : ℕ) (ok : Bool) :
    SameReplay h (h.registerControlRoute generation ok).1 := by
  have hinstall : SameReplay h ((h.close h.controlRoute).installRoute generation) :=
    (sameReplay_close h h.controlRoute).trans ⟨rfl, rfl, rfl, rfl, rfl⟩
  rw [registerControlRoute]
  split
  · dsimp only
    split
    · exact hinstall
    · exact hinstall.trans (sameReplay_turnDisplayOff ..)
  · exact ⟨rfl, rfl, rfl, rfl, rfl⟩

theorem sameReplay_clearControlRoute (h : Hub) (route : Option RouteId) :
    SameReplay h (h.clearControlRoute route) := by
  have hdetached : SameReplay h { h with controlRoute := none } := ⟨rfl, rfl, rfl, rfl, rfl⟩
  by_cases hroute : h.controlRoute = route
  · rw [clearControlRoute, detachRoute, if_pos hroute]
    exact hdetached.trans (sameReplay_close _ route)
  · rw [clearControlRoute, detachRoute, if_neg hroute]
    exact ⟨rfl, rfl, rfl, rfl, rfl⟩

theorem sameReplay_writeControl (h : Hub) (data : Bytes) (ok : Bool) :
    SameReplay h (h.writeControl data ok).1 := by
  rw [writeControl]
  split
  · exact ⟨rfl, rfl, rfl, rfl, rfl⟩
  · split_ifs <;> exact ⟨rfl, rfl, rfl, rfl, rfl⟩

theorem Remembers.accepts (hs : Remembers h s) (generation : ℕ) :
    h.accepts generation = s.accepts generation := by
  rw [Hub.accepts, History.accepts, hs.active, hs.generation]

/-- A new generation starts with an empty cache. -/
theorem remembers_beginScreenSession (hs : Remembers h s) (ok : Bool) :
    Remembers (h.beginScreenSession ok).1 (s.next .beginSession) := by
  have hended : (if h.screenActive then
      (h.endScreenSessionLocked.1.restoreDisplay h.endScreenSessionLocked.2 ok).1.close
        h.endScreenSessionLocked.2 else h).screenGeneration = s.generation := by
    split
    · rw [(sameReplay_close ..).generation, (sameReplay_restoreDisplay ..).generation]
      exact hs.generation
    · exact hs.generation
  exact ⟨congrArg (· + 1) hended, rfl, rfl, rfl, rfl⟩

theorem remembers_setScreenSession (hs : Remembers h s) (generation : ℕ) (session : ScreenSession)
    (ok : Bool) : Remembers (h.setScreenSession generation session ok).1
      (s.next (.setSession generation session)) := by
  rw [setScreenSession, hs.accepts, History.next]
  split
  · have hnew : Remembers (((h.cacheSession session).markHeaderReady).broadcastEvent
        (.screenSession session)) { s with session := some session, frames := [] } :=
      ⟨hs.generation, hs.active, rfl, rfl, rfl⟩
    dsimp only
    split
    · split
      · exact (sameReplay_turnDisplayOff ..).remembers hnew
      · exact hnew
    · exact hnew
  · exact hs

theorem remembers_endScreenSession (hs : Remembers h s) (generation : ℕ) (ok : Bool) :
    Remembers (h.endScreenSession generation ok).1 (s.next (.endSession generation)) := by
  rw [endScreenSession, hs.accepts, History.next]
  split
  · have hcleared : Remembers h.endScreenSessionLocked.1.clearReplay
        { s with active := false, session := none, frames := [] } :=
      ⟨hs.generation, rfl, rfl, rfl, rfl⟩
    exact ((sameReplay_restoreDisplay ..).trans (sameReplay_close ..)).remembers hcleared
  · exact hs

/-- **A frame** moves the window of the config frames, and becomes the key frame if it is one and
can be kept. -/
theorem remembers_cacheFrame (hs : Remembers h s) (data : Bytes) :
    Remembers (h.cacheFrame data) { s with frames := s.frames ++ [data] } := by
  match data with
  | [] | [_] =>
    refine ⟨hs.generation, hs.active, hs.session, ?_, ?_⟩
    · rw [History.configs, filter_filter_concat, if_neg (by simp [hasUnit]), List.append_nil]
      exact hs.configs
    · rw [History.keyFrames, filter_filter_concat,
        if_neg (by simp [History.keepsKey, hasUnit]), List.append_nil]
      exact hs.keyFrame
  | flags :: d :: rest =>
    have hunit : hasUnit (flags :: d :: rest) = true := decide_eq_true (by simp)
    refine ⟨hs.generation, hs.active, hs.session, ?_, ?_⟩
    · rw [History.configs, filter_filter_concat, hunit, Bool.and_true, hasFlag, Hub.cacheFrame]
      by_cases hflag : flags &&& 1 ≠ 0
      · rw [if_pos (decide_eq_true hflag), ← rtake_rtake_concat]
        simp only [if_pos hflag, hs.configs]
        rfl
      · rw [if_neg fun h ↦ hflag (of_decide_eq_true h), List.append_nil]
        simp only [if_neg hflag]
        exact hs.configs
    · have hkept :
          (hasFlag 2 (flags :: d :: rest) && History.keepsKey (flags :: d :: rest)) = true ↔
            flags &&& 2 ≠ 0 ∧ (flags :: d :: rest).length ≤ maxScreenReplayFrameBytes := by
        rw [History.keepsKey, hunit, Bool.true_and, Bool.and_eq_true, hasFlag, fits,
          decide_eq_true_eq, decide_eq_true_eq]
      rw [History.keyFrames, filter_filter_concat, Hub.cacheFrame]
      by_cases hkey : flags &&& 2 ≠ 0 ∧ (flags :: d :: rest).length ≤ maxScreenReplayFrameBytes
      · rw [if_pos (hkept.2 hkey), List.getLast?_concat]
        simp only [if_pos hkey]
      · rw [if_neg fun h ↦ hkey (hkept.1 h), List.append_nil]
        simp only [if_neg hkey]
        exact hs.keyFrame

/-- **Every operation** keeps the hub and the history in agreement. -/
theorem remembers_perform (hs : Remembers h s) (ok : Bool) (op : Op) :
    Remembers (h.perform ok op) (s.next op) :=
  match op with
  | .beginSession => remembers_beginScreenSession hs ok
  | .setSession generation session => remembers_setScreenSession hs generation session ok
  | .endSession generation => remembers_endScreenSession hs generation ok
  | .register generation => (sameReplay_registerControlRoute h generation ok).remembers hs
  | .clear route => (sameReplay_clearControlRoute h route).remembers hs
  | .write data => (sameReplay_writeControl h data ok).remembers hs
  | .frame generation data => by
    rw [perform, broadcastScreenFrame, hs.accepts, History.next]
    split
    · have hoffer : SameReplay (h.cacheFrame data) (h.publishFrame data) :=
        ⟨rfl, rfl, rfl, rfl, rfl⟩
      exact hoffer.remembers (remembers_cacheFrame hs data)
    · exact hs

theorem remembers_performAll (ops : List (Op × Bool)) :
    Remembers (performAll ops) (History.of ops) := by
  induction ops using List.reverseRecOn with
  | nil => exact ⟨rfl, rfl, rfl, rfl, rfl⟩
  | append_singleton ops op ih =>
    rw [performAll, History.of, List.foldl_append, List.foldl_append]
    exact remembers_perform ih op.2 op.1

/-- What the hub gives a late viewer. -/
theorem screenInitMessage_performAll (ops : List (Op × Bool)) :
    (performAll ops).screenInitMessage =
      .screenInit ⟨(History.of ops).session,
        ((History.of ops).configs.filter hasUnit).rtake maxScreenReplayConfigFrames,
        ((History.of ops).keyFrames.filter History.keepsKey).getLast?⟩ := by
  have h := remembers_performAll ops
  rw [screenInitMessage, h.session, h.configs, h.keyFrame]

/-- **The replay** is what a late viewer should get exactly when the frames it should get are more
than their flags, and no key frame that is too large hides one that the hub can keep. -/
theorem screenInitMessage_eq_reference_iff (ops : List (Op × Bool)) :
    (performAll ops).screenInitMessage = .screenInit (History.of ops).reference ↔
      (History.of ops).Keepable := by
  have hsmall (data : Bytes) (h : History.keepsKey data = true) : fits data = true :=
    (Bool.and_eq_true _ _ ▸ h).2
  have hkeeps (data : Bytes) (h : fits data = true) : History.keepsKey data = hasUnit data := by
    rw [History.keepsKey, h, Bool.and_true]
  have hkey (data : Bytes) (p : Prop) : (if fits data then History.keepsKey data = true else p) ↔
      if fits data then hasUnit data = true else p := by
    split
    · rw [hkeeps data ‹_›]
    · rfl
  rw [screenInitMessage_performAll, History.reference, WSMessage.screenInit.injEq,
    ScreenInit.mk.injEq, rtake_filter_eq_iff, getLast?_filter_eq_iff _ _ _ hsmall]
  simp only [hkey]
  exact ⟨fun h ↦ ⟨h.2.1, h.2.2⟩, fun h ↦ ⟨trivial, h.configs, h.keyFrame⟩⟩

/-- A generation with a small key frame and then another one. -/
def twoKeyFrames (data : Bytes) : List (Op × Bool) :=
  [(.beginSession, true), (.setSession 1 ⟨720, 1600⟩, true), (.frame 1 [2, 0], true),
    (.frame 1 (2 :: 0 :: data), true)]

theorem twoKeyFrames_of_large {data : Bytes} (h : fits (2 :: 0 :: data) = false) :
    (performAll (twoKeyFrames data)).screenInitMessage =
        .screenInit ⟨some ⟨720, 1600⟩, [], some [2, 0]⟩ ∧
      (History.of (twoKeyFrames data)).reference = ⟨some ⟨720, 1600⟩, [], none⟩ := by
  have hkeys : (History.of (twoKeyFrames data)).keyFrames = [[2, 0], 2 :: 0 :: data] := rfl
  have hconfigs : (History.of (twoKeyFrames data)).configs = [] := rfl
  have hsession : (History.of (twoKeyFrames data)).session = some ⟨720, 1600⟩ := rfl
  have hsmall : History.keepsKey [2, 0] = true := by decide
  have hlarge : ¬History.keepsKey (2 :: 0 :: data) = true := by
    rw [History.keepsKey, h, Bool.and_false]
    decide
  constructor
  · rw [screenInitMessage_performAll, hkeys, hconfigs, hsession,
      List.filter_cons_of_pos hsmall, List.filter_cons_of_neg hlarge]
    rfl
  · rw [History.reference, hkeys, hconfigs, hsession, List.getLast?_cons_cons,
      List.getLast?_singleton, Option.filter_some_neg h]
    rfl

theorem fits_of_lt {data : Bytes} (h : maxScreenReplayFrameBytes < data.length) :
    fits data = false := by
  rw [fits, decide_eq_false_iff_not]
  exact Nat.not_le.2 h

theorem lt_length_replicate (n : ℕ) : n < (2 :: 0 :: List.replicate n (0 : UInt8)).length := by
  rw [List.length_cons, List.length_cons, List.length_replicate]
  omega

/-- **A key frame that is too large** leaves the one before it in the cache. -/
theorem stale_key_frame :
    (performAll (twoKeyFrames (List.replicate maxScreenReplayFrameBytes 0))).screenInitMessage =
        .screenInit ⟨some ⟨720, 1600⟩, [], some [2, 0]⟩ ∧
      (History.of (twoKeyFrames (List.replicate maxScreenReplayFrameBytes 0))).reference =
        ⟨some ⟨720, 1600⟩, [], none⟩ :=
  twoKeyFrames_of_large (fits_of_lt (lt_length_replicate maxScreenReplayFrameBytes))

end AllRelay.Hub
