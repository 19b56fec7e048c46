import AllRelay.Control.Encoders
import AllRelay.Library.EventHandler
import Mathlib.Data.Finset.Basic

/-!
# The keyboard of the browser

`app.js` forwards a key in one of two ways. A key that types a character is injected as text when it
goes down and its release is swallowed; any other key is sent as a DOWN and an UP. Which way is
decided anew at every event: by the modifiers of a `keydown`, and by `textInjectedKeysDown` at a
`keyup`. When the window blurs the handlers forget what is down, without a word to the phone.

The screen is active and the WebSocket is open throughout, so that every message is sent.
-/

open EventHandler

namespace AllRelay.Browser

open Encoders

/-- A `KeyboardEvent`, as far as the handlers read it. A string is its list of code units, except
for `code`, which is one of a fixed set of names. -/
structure KeyEvent where
  /-- The physical key. -/
  code : String
  key : List UInt16
  /-- The event is an auto-repeat. -/
  isRepeat : Bool
  isComposing : Bool
  ctrlKey : Bool
  altKey : Bool
  metaKey : Bool
  /-- `getModifierState('AltGraph')`. -/
  altGraph : Bool
  /-- `getModifierState('CapsLock')`. -/
  capsLock : Bool
  /-- `getModifierState('NumLock')`. -/
  numLock : Bool
deriving DecidableEq

/-- `shouldInjectTextInput`. -/
def shouldInjectTextInput (e : KeyEvent) : Bool :=
  !e.isComposing && e.key.length = 1 && !(e.ctrlKey || e.metaKey) && !(e.altKey && !e.altGraph)

/-- `codeMap`. -/
def codeMap : List (String × ℤ) :=
  [("Enter", 66), ("NumpadEnter", 160), ("Backspace", 67), ("Delete", 112), ("Escape", 111),
    ("Tab", 61), ("Space", 62), ("ArrowUp", 19), ("ArrowDown", 20), ("ArrowLeft", 21),
    ("ArrowRight", 22), ("Home", 122), ("End", 123), ("PageUp", 92), ("PageDown", 93),
    ("ShiftLeft", 59), ("ShiftRight", 60), ("ControlLeft", 113), ("ControlRight", 114),
    ("AltLeft", 57), ("AltRight", 58), ("MetaLeft", 117), ("MetaRight", 118), ("Minus", 69),
    ("Equal", 70), ("BracketLeft", 71), ("BracketRight", 72), ("Backslash", 73),
    ("Semicolon", 74), ("Quote", 75), ("Slash", 76), ("Backquote", 68), ("Comma", 55),
    ("Period", 56)]

/-- `mapBrowserKeyToAndroid`, after the lookup in `codeMap`: the names of the letters and digits. -/
def mapPattern : List Char → Option ℤ
  | ['K', 'e', 'y', c] =>
    if 'A' ≤ c ∧ c ≤ 'Z' then some (29 + (c.toNat - 65)) else none
  | ['D', 'i', 'g', 'i', 't', c] =>
    if '0' ≤ c ∧ c ≤ '9' then some (7 + (c.toNat - 48)) else none
  | ['N', 'u', 'm', 'p', 'a', 'd', c] =>
    if '0' ≤ c ∧ c ≤ '9' then some (144 + (c.toNat - 48)) else none
  | _ => none

/-- `mapBrowserKeyToAndroid`. -/
def mapBrowserKeyToAndroid (code : String) : Option ℤ :=
  (codeMap.lookup code).or (mapPattern code.toList)

/-- The codes that `updateModifierKeyState` tracks. -/
def modifierCodes : List String :=
  ["ShiftLeft", "ShiftRight", "ControlLeft", "ControlRight", "AltLeft", "AltRight", "MetaLeft",
    "MetaRight"]

/-- What the handlers keep of the keyboard. -/
structure Keyboard where
  textInjectedKeysDown : Finset String
  modifierKeysDown : Finset String
deriving DecidableEq

/-- What the handlers are called with. -/
inductive Event where
  /-- `keydown`. -/
  | keydown (e : KeyEvent)
  /-- `keyup`. -/
  | keyup (e : KeyEvent)
  /-- `blur`. -/
  | blur
deriving DecidableEq

namespace Keyboard

/-- No key is down. -/
def start : Keyboard :=
  ⟨∅, ∅⟩

/-- `updateModifierKeyState`. -/
def updateModifierKeyState (s : Keyboard) (e : KeyEvent) (isDown : Bool) : Keyboard :=
  if e.code ∈ modifierCodes then
    { s with
      modifierKeysDown :=
        if isDown then insert e.code s.modifierKeysDown else s.modifierKeysDown.erase e.code }
  else s

/-- `resetKeyboardState`. -/
def resetKeyboardState (_ : Keyboard) : Keyboard :=
  ⟨∅, ∅⟩

/-- `getAndroidMetaState`. -/
def getAndroidMetaState (s : Keyboard) (e : KeyEvent) : ℤ :=
  let has (code : String) : Bool := code ∈ s.modifierKeysDown
  let flag (b : Bool) (bits : ℕ) : ℕ := if b then bits else 0
  let altRight := has "AltRight" || e.altGraph
  (flag (has "ShiftLeft") 0x40 ||| flag (has "ShiftRight") 0x80 |||
    flag (has "ShiftLeft" || has "ShiftRight") 0x01 |||
    flag (has "AltLeft") 0x10 ||| flag altRight 0x20 ||| flag (has "AltLeft" || altRight) 0x02 |||
    flag (has "ControlLeft") 0x2000 ||| flag (has "ControlRight") 0x4000 |||
    flag (has "ControlLeft" || has "ControlRight") 0x1000 |||
    flag (has "MetaLeft") 0x20000 ||| flag (has "MetaRight") 0x40000 |||
    flag (has "MetaLeft" || has "MetaRight") 0x10000 |||
    flag e.capsLock 0x100000 ||| flag e.numLock 0x200000 : ℕ)

/-- The `keydown` listener. -/
def keydown (s : Keyboard) (e : KeyEvent) : Keyboard × Option ControlInput :=
  let s := s.updateModifierKeyState e true
  if shouldInjectTextInput e then
    let text := if e.code = "" then s.textInjectedKeysDown else insert e.code s.textInjectedKeysDown
    ({ s with textInjectedKeysDown := text }, some (.text e.key))
  else
    match mapBrowserKeyToAndroid e.code with
    | none => (s, none)
    | some keycode =>
      (s, some (.key 0 keycode (if e.isRepeat then 1 else 0) (s.getAndroidMetaState e)))

/-- The `keyup` listener. -/
def keyup (s : Keyboard) (e : KeyEvent) : Keyboard × Option ControlInput :=
  if e.code ≠ "" ∧ e.code ∈ s.textInjectedKeysDown then
    ({ s with textInjectedKeysDown := s.textInjectedKeysDown.erase e.code }, none)
  else
    match mapBrowserKeyToAndroid e.code with
    | none => (s.updateModifierKeyState e false, none)
    | some keycode =>
      (s.updateModifierKeyState e false, some (.key 1 keycode 0 (s.getAndroidMetaState e)))

/-- The listener of an event: the state afterwards and the message it sends. -/
def handle (s : Keyboard) : Event → Keyboard × Option ControlInput
  | .keydown e => s.keydown e
  | .keyup e => s.keyup e
  | .blur => (s.resetKeyboardState, none)

/-- The state after an event. -/
def next (s : Keyboard) (e : Event) : Keyboard :=
  (s.handle e).1

/-- The message that is sent at an event. -/
def out (s : Keyboard) (e : Event) : Option ControlInput :=
  (s.handle e).2

/-- What the page sends over a sequence of events. -/
def sent (es : List Event) : List ControlInput :=
  emitted next out start es

end Keyboard

/-! ### Keycodes -/

/-- The keys of a pattern: a name, and one of `n` characters from `lo` on. -/
def patternKeys (name : List Char) (lo n base : ℕ) : List (String × ℤ) :=
  (List.range n).map fun i ↦
    (String.ofList (name ++ [Char.ofNat (lo + i)]), ((base + i : ℕ) : ℤ))

theorem mem_patternKeys {name : List Char} {lo n : ℕ} {c : Char} (base : ℕ)
    (hlo : lo ≤ c.toNat) (hhi : c.toNat < lo + n) :
    (String.ofList (name ++ [c]), (base : ℤ) + (c.toNat - lo)) ∈ patternKeys name lo n base := by
  refine List.mem_map.2 ⟨c.toNat - lo, List.mem_range.2 (by omega), ?_⟩
  rw [Nat.add_sub_cancel' hlo, Char.ofNat_toNat]
  congr 1
  omega

/-- Every key that has an Android keycode. -/
def mappedKeys : List (String × ℤ) :=
  codeMap ++ patternKeys ['K', 'e', 'y'] 65 26 29 ++
    patternKeys ['D', 'i', 'g', 'i', 't'] 48 10 7 ++
    patternKeys ['N', 'u', 'm', 'p', 'a', 'd'] 48 10 144

theorem mappedKeys_nodup : (mappedKeys.map Prod.snd).Nodup := by
  decide

theorem mem_mappedKeys_of_mapPattern {chars : List Char} {keycode : ℤ}
    (h : mapPattern chars = some keycode) : (String.ofList chars, keycode) ∈ mappedKeys := by
  unfold mapPattern at h
  simp only [mappedKeys, List.mem_append]
  split at h
  · split_ifs at h with hc
    obtain rfl := Option.some.inj h
    exact Or.inl (Or.inl (Or.inr (mem_patternKeys 29 hc.1 (Nat.lt_succ_of_le hc.2))))
  · split_ifs at h with hc
    obtain rfl := Option.some.inj h
    exact Or.inl (Or.inr (mem_patternKeys 7 hc.1 (Nat.lt_succ_of_le hc.2)))
  · split_ifs at h with hc
    obtain rfl := Option.some.inj h
    exact Or.inr (mem_patternKeys 144 hc.1 (Nat.lt_succ_of_le hc.2))
  · cases h

theorem mem_mappedKeys {code : String} {keycode : ℤ}
    (h : mapBrowserKeyToAndroid code = some keycode) : (code, keycode) ∈ mappedKeys := by
  rcases Option.or_eq_some_iff.1 h with hmap | ⟨-, hpat⟩
  · obtain ⟨l, l', hl, -⟩ := List.lookup_eq_some_iff.1 hmap
    have hmem : (code, keycode) ∈ codeMap := hl ▸ List.mem_append_right _ List.mem_cons_self
    simp only [mappedKeys, List.mem_append]
    exact Or.inl (Or.inl (Or.inl hmem))
  · have := mem_mappedKeys_of_mapPattern hpat
    rwa [String.ofList_toList] at this

/-- Different keys have different keycodes. -/
theorem mapBrowserKeyToAndroid_injective {code code' : String} {keycode : ℤ}
    (h : mapBrowserKeyToAndroid code = some keycode)
    (h' : mapBrowserKeyToAndroid code' = some keycode) : code = code' :=
  congrArg Prod.fst
    (List.inj_on_of_nodup_map mappedKeys_nodup (mem_mappedKeys h) (mem_mappedKeys h') rfl)

theorem ne_empty_of_mapped {code : String} {keycode : ℤ}
    (h : mapBrowserKeyToAndroid code = some keycode) : code ≠ "" := by
  rintro rfl
  have hnone : mapBrowserKeyToAndroid "" = none := by decide
  exact Option.some_ne_none keycode (h.symm.trans hnone)

/-! ### Balance -/

/-- A DOWN of a keycode. -/
def IsDown (keycode : ℤ) (m : ControlInput) : Prop :=
  ∃ repeatCount metaState, m = .key 0 keycode repeatCount metaState

/-- An UP of a keycode. -/
def IsUp (keycode : ℤ) (m : ControlInput) : Prop :=
  ∃ repeatCount metaState, m = .key 1 keycode repeatCount metaState

/-- Every keycode that was sent a DOWN was sent an UP after its last one. -/
def Balanced (messages : List ControlInput) : Prop :=
  ∀ keycode, Answered (IsDown keycode) (IsUp keycode) messages

/-- An event that ends a press of a key: its release, or a blur. -/
def EndsPress (code : String) (e : Event) : Prop :=
  e = .blur ∨ ∃ u : KeyEvent, e = .keyup u ∧ u.code = code

/-- Every physical key has been released since it was pressed, or the window has blurred. -/
def Settled (es : List Event) : Prop :=
  ∀ code, Answered (fun e ↦ ∃ d : KeyEvent, e = .keydown d ∧ d.code = code) (EndsPress code) es

/-- In the current press of a key, one of its `keydown`s typed text. -/
def TypedText (code : String) (es : List Event) : Prop :=
  ∃ pre d post, es = pre ++ .keydown d :: post ∧ d.code = code ∧ shouldInjectTextInput d = true ∧
    ∀ e ∈ post, ¬EndsPress code e

/-- The condition on the input. After a `keydown` of a key with a keycode that does not type text,
the window gets a `keyup` of the key, and no `keydown` of the press that it ends typed text. -/
def KeyupsArrive (es : List Event) : Prop :=
  ∀ pre d post, es = pre ++ .keydown d :: post → shouldInjectTextInput d = false →
    mapBrowserKeyToAndroid d.code ≠ none →
    ∃ mid u post', post = mid ++ .keyup u :: post' ∧ u.code = d.code ∧
      ¬TypedText d.code (pre ++ .keydown d :: mid)

theorem not_typedText_nil (code : String) : ¬TypedText code [] := by
  rintro ⟨pre, d, post, h, -⟩
  exact absurd h (by simp)

/-- The current press after one more event. -/
theorem typedText_concat {code : String} {es : List Event} {e : Event} :
    TypedText code (es ++ [e]) ↔
      (∃ d : KeyEvent, e = .keydown d ∧ d.code = code ∧ shouldInjectTextInput d = true) ∨
        TypedText code es ∧ ¬EndsPress code e := by
  constructor
  · rintro ⟨pre, d, post, hes, hcode, htext, hpost⟩
    -- The `keydown` is the last event, or one before it.
    rcases List.eq_nil_or_concat post with rfl | ⟨post, e', rfl⟩
    · obtain ⟨-, he⟩ := List.append_inj' hes rfl
      exact Or.inl ⟨d, List.cons.inj he |>.1, hcode, htext⟩
    · rw [List.concat_eq_append] at hes hpost
      rw [← List.cons_append, ← List.append_assoc] at hes
      obtain ⟨hpre, he⟩ := List.append_inj' hes rfl
      obtain rfl : e = e' := List.cons.inj he |>.1
      refine Or.inr ⟨⟨pre, d, post, hpre, hcode, htext, fun f hf ↦ ?_⟩, ?_⟩
      · exact hpost f (List.mem_append_left _ hf)
      · exact hpost e (List.mem_append_right _ List.mem_cons_self)
  · rintro (⟨d, rfl, hcode, htext⟩ | ⟨⟨pre, d, post, rfl, hcode, htext, hpost⟩, he⟩)
    · exact ⟨es, d, [], rfl, hcode, htext, by simp⟩
    · refine ⟨pre, d, post ++ [e], by simp, hcode, htext, fun f hf ↦ ?_⟩
      rcases List.mem_append.1 hf with hf | hf
      · exact hpost f hf
      · rw [List.mem_singleton.1 hf]
        exact he

namespace Keyboard

@[simp]
theorem updateModifierKeyState_text (s : Keyboard) (e : KeyEvent) (isDown : Bool) :
    (s.updateModifierKeyState e isDown).textInjectedKeysDown = s.textInjectedKeysDown := by
  unfold updateModifierKeyState
  split <;> rfl

/-- What the `keydown` listener does to `textInjectedKeysDown`. -/
theorem keydown_text (s : Keyboard) (d : KeyEvent) :
    (s.keydown d).1.textInjectedKeysDown =
      if shouldInjectTextInput d = true ∧ d.code ≠ "" then insert d.code s.textInjectedKeysDown
      else s.textInjectedKeysDown := by
  unfold keydown
  rcases shouldInjectTextInput d with _ | _
  · rcases mapBrowserKeyToAndroid d.code with _ | keycode <;> simp
  · by_cases hd : d.code = ""
    · simp [hd]
    · simp [hd]

/-- What the `keyup` listener does to it. -/
theorem keyup_text (s : Keyboard) (u : KeyEvent) :
    (s.keyup u).1.textInjectedKeysDown =
      if u.code ≠ "" then s.textInjectedKeysDown.erase u.code else s.textInjectedKeysDown := by
  unfold keyup
  split_ifs with hmem hne hne
  · rfl
  · exact absurd hmem.1 hne
  · have hnot : u.code ∉ s.textInjectedKeysDown := fun h ↦ hmem ⟨hne, h⟩
    rw [Finset.erase_eq_of_notMem hnot]
    rcases mapBrowserKeyToAndroid u.code with _ | keycode <;> simp
  · rcases mapBrowserKeyToAndroid u.code with _ | keycode <;> simp

/-- What the listeners keep of a key. -/
theorem mem_next_text {s : Keyboard} {e : Event} {code : String} (hcode : code ≠ "") :
    code ∈ (s.next e).textInjectedKeysDown ↔
      (∃ d : KeyEvent, e = .keydown d ∧ d.code = code ∧ shouldInjectTextInput d = true) ∨
        code ∈ s.textInjectedKeysDown ∧ ¬EndsPress code e := by
  rcases e with d | u | _
  case keydown =>
    show code ∈ (s.keydown d).1.textInjectedKeysDown ↔ _
    have hends : ¬EndsPress code (.keydown d) := by
      rintro (h | ⟨u, h, -⟩) <;> cases h
    rw [keydown_text]
    constructor
    · intro h
      split_ifs at h with hd
      · rcases Finset.mem_insert.1 h with h | h
        · exact Or.inl ⟨d, rfl, h.symm, hd.1⟩
        · exact Or.inr ⟨h, hends⟩
      · exact Or.inr ⟨h, hends⟩
    · rintro (⟨d', h, rfl, htext⟩ | ⟨h, -⟩)
      · obtain rfl := Event.keydown.inj h
        rw [if_pos ⟨htext, hcode⟩]
        exact Finset.mem_insert_self _ _
      · split_ifs
        · exact Finset.mem_insert_of_mem h
        · exact h
  case keyup =>
    show code ∈ (s.keyup u).1.textInjectedKeysDown ↔ _
    have hends : EndsPress code (.keyup u) ↔ u.code = code := by
      simp [EndsPress]
    rw [keyup_text, hends]
    constructor
    · intro h
      split_ifs at h with hu
      · exact Or.inr ⟨Finset.mem_of_mem_erase h, (Finset.ne_of_mem_erase h).symm⟩
      · exact Or.inr ⟨h, fun huc ↦ hu (huc ▸ hcode)⟩
    · rintro (⟨d, h, -⟩ | ⟨h, hu⟩)
      · cases h
      · split_ifs
        · exact Finset.mem_erase.2 ⟨fun heq ↦ hu heq.symm, h⟩
        · exact h
  case blur =>
    have hends : EndsPress code .blur := Or.inl rfl
    show code ∈ (∅ : Finset String) ↔ _
    constructor
    · intro h
      exact absurd h (Finset.notMem_empty code)
    · rintro (⟨d, h, -⟩ | ⟨-, h⟩)
      · cases h
      · exact absurd hends h

/-- **The suppressed keys.** `textInjectedKeysDown` holds the keys whose current press typed
text. -/
theorem mem_text_iff {code : String} (hcode : code ≠ "") (es : List Event) :
    code ∈ (after next start es).textInjectedKeysDown ↔ TypedText code es := by
  induction es using List.reverseRecOn with
  | nil => exact iff_of_false (Finset.notMem_empty code) (not_typedText_nil code)
  | append_singleton es e ih =>
    rw [after_concat, mem_next_text hcode, typedText_concat, ih]

/-- A DOWN is sent for a `keydown` that does not type text. -/
theorem out_isDown_iff {s : Keyboard} {e : Event} {keycode : ℤ} :
    (∃ m, s.out e = some m ∧ IsDown keycode m) ↔
      ∃ d : KeyEvent, e = .keydown d ∧ shouldInjectTextInput d = false ∧
        mapBrowserKeyToAndroid d.code = some keycode := by
  constructor
  · rintro ⟨m, hm, repeatCount, metaState, rfl⟩
    rcases e with d | u | _
    case keydown =>
      change (s.keydown d).2 = _ at hm
      unfold keydown at hm
      rcases htext : shouldInjectTextInput d with _ | _
      · rcases hmap : mapBrowserKeyToAndroid d.code with _ | k
        · simp [htext, hmap] at hm
        · simp only [htext, hmap, Bool.false_eq_true, if_false, Option.some.injEq,
            ControlInput.key.injEq] at hm
          exact ⟨d, rfl, htext, hm.2.1 ▸ hmap⟩
      · simp [htext] at hm
    case keyup =>
      change (s.keyup u).2 = _ at hm
      unfold keyup at hm
      split_ifs at hm
      rcases hmap : mapBrowserKeyToAndroid u.code with _ | k
      · simp [hmap] at hm
      · simp [hmap] at hm
    case blur => cases hm
  · rintro ⟨d, rfl, htext, hmap⟩
    refine ⟨.key 0 keycode (if d.isRepeat then 1 else 0)
      ((s.updateModifierKeyState d true).getAndroidMetaState d), ?_, _, _, rfl⟩
    show (s.keydown d).2 = _
    unfold keydown
    rw [htext, hmap]
    rfl

/-- An UP is sent for a `keyup` of a key that is not suppressed. -/
theorem out_isUp_iff {s : Keyboard} {e : Event} {keycode : ℤ} :
    (∃ m, s.out e = some m ∧ IsUp keycode m) ↔
      ∃ u : KeyEvent, e = .keyup u ∧ u.code ∉ s.textInjectedKeysDown ∧
        mapBrowserKeyToAndroid u.code = some keycode := by
  constructor
  · rintro ⟨m, hm, repeatCount, metaState, rfl⟩
    rcases e with d | u | _
    case keydown =>
      change (s.keydown d).2 = _ at hm
      unfold keydown at hm
      rcases htext : shouldInjectTextInput d with _ | _
      · rcases hmap : mapBrowserKeyToAndroid d.code with _ | k
        · simp [htext, hmap] at hm
        · simp [htext, hmap] at hm
      · simp [htext] at hm
    case keyup =>
      change (s.keyup u).2 = _ at hm
      unfold keyup at hm
      split_ifs at hm with hmem
      rcases hmap : mapBrowserKeyToAndroid u.code with _ | k
      · simp [hmap] at hm
      · simp only [hmap, Option.some.injEq, ControlInput.key.injEq] at hm
        have hne := ne_empty_of_mapped hmap
        exact ⟨u, rfl, fun h ↦ hmem ⟨hne, h⟩, hm.2.1 ▸ hmap⟩
    case blur => cases hm
  · rintro ⟨u, rfl, hmem, hmap⟩
    refine ⟨.key 1 keycode 0 (s.getAndroidMetaState u), ?_, _, _, rfl⟩
    show (s.keyup u).2 = _
    unfold keyup
    rw [if_neg fun h ↦ hmem h.2, hmap]

/-- **Key balance.** Over any sequence of `keydown`s, `keyup`s and blurs, every keycode that is sent
a DOWN is sent an UP after its last one exactly when the `keyup`s arrive: each press that sent a
DOWN ends in the window, before a blur, and types no text. -/
theorem key_balance (es : List Event) : Balanced (sent es) ↔ KeyupsArrive es := by
  constructor
  · rintro hbal pre d post rfl htext hmap
    obtain ⟨keycode, hmap⟩ := Option.ne_none_iff_exists'.1 hmap
    obtain ⟨m, hm, hA⟩ := out_isDown_iff.2 ⟨d, rfl, htext, hmap⟩
    obtain ⟨mid, e, post', m', rfl, hm', hB⟩ :=
      answered_emitted_iff.1 (hbal keycode) pre _ post m rfl hm hA
    obtain ⟨u, rfl, hmem, hmap'⟩ := out_isUp_iff.1 ⟨m', hm', hB⟩
    -- The keycode of the UP belongs to the key of the DOWN.
    have hcode : u.code = d.code := mapBrowserKeyToAndroid_injective hmap' hmap
    rw [hcode, mem_text_iff (ne_empty_of_mapped hmap)] at hmem
    exact ⟨mid, u, post', rfl, hcode, hmem⟩
  · intro harrive keycode
    refine answered_emitted_iff.2 ?_
    rintro pre e post m rfl hm hA
    obtain ⟨d, rfl, htext, hmap⟩ := out_isDown_iff.1 ⟨m, hm, hA⟩
    obtain ⟨mid, u, post', rfl, hcode, htyped⟩ :=
      harrive pre d post rfl htext (by simp [hmap])
    rw [← mem_text_iff (ne_empty_of_mapped hmap), ← hcode] at htyped
    obtain ⟨m', hm', hB⟩ := out_isUp_iff.2 ⟨u, rfl, htyped, hcode ▸ hmap⟩
    exact ⟨mid, _, post', m', rfl, hm', hB⟩

/-- A key that types `key`, with Ctrl down or not. -/
def pressed (code : String) (key : List UInt16) (ctrlKey : Bool) : KeyEvent :=
  { code, key, ctrlKey, isRepeat := false, isComposing := false, altKey := false, metaKey := false,
    altGraph := false, capsLock := false, numLock := false }

/-- The window blurs while Ctrl is down. -/
def blurRun : List Event :=
  [.keydown (pressed "ControlLeft" [67, 116, 114, 108] true), .blur]

/-- Ctrl+C, where Ctrl is released first and C repeats once. -/
def chordRun : List Event :=
  [.keydown (pressed "ControlLeft" [67, 116, 114, 108] true),
    .keydown (pressed "KeyC" [99] true),
    .keyup (pressed "ControlLeft" [67, 116, 114, 108] false),
    .keydown { pressed "KeyC" [99] false with isRepeat := true },
    .keyup (pressed "KeyC" [99] false)]

theorem sent_blurRun : sent blurRun = [.key 0 113 0 0x3000] := by
  decide

theorem sent_chordRun :
    sent chordRun =
      [.key 0 113 0 0x3000, .key 0 31 0 0x3000, .key 1 113 0 0x3000, .text [99]] := by
  decide

/-- Two ways to leave a key held on the phone: Ctrl, over a blur, and C, whose repeat types text. -/
theorem stuck_keys :
    (Settled blurRun ∧ ¬Balanced (sent blurRun)) ∧
      Settled chordRun ∧ ¬Balanced (sent chordRun) := by
  refine ⟨⟨fun code ↦ ?_, fun h ↦ ?_⟩, fun code ↦ ?_, fun h ↦ ?_⟩
  · simp [blurRun, answered_cons, EndsPress]
  · obtain ⟨m, hm, -⟩ := h 113 [] _ [] sent_blurRun ⟨0, _, rfl⟩
    exact absurd hm List.not_mem_nil
  · have hkeys : ("ControlLeft" = code → "ControlLeft" = code ∨ "KeyC" = code) ∧
        ("KeyC" = code → "ControlLeft" = code ∨ "KeyC" = code) := ⟨Or.inl, Or.inr⟩
    simpa [chordRun, answered_cons, EndsPress, pressed] using hkeys
  · obtain ⟨m, hm, r, k, rfl⟩ := h 31 [_] _ _ sent_chordRun ⟨0, _, rfl⟩
    simp at hm

end Keyboard

end AllRelay.Browser
