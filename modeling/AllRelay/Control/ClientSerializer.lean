import AllRelay.Control.RoundTrip
import AllRelay.Library.Utf8Boundary

/-!
# The desktop client's control messages

The desktop client writes its control messages with `sc_control_msg_serialize` (`control_msg.c`) and
the phone reads them with `ControlMessageReader`, the reader that the browser's messages meet too.
The client knows every type the reader does.

* `serialize_isSome_iff`: for arguments in the range of their fields, `serialize` stops at an
  assertion exactly on a fraction that is less than 1 and nearer to it than one fixed point unit.
* `parses_serialize`: whatever it writes, the phone reads as that message, with its texts cut
  between two characters and its fractions rounded to fixed point; and it never writes past
  `SC_CONTROL_MSG_MAX_SIZE`.

A `float` is a rational number: the code only scales it by powers of two, which is exact.
-/

namespace AllRelay.Client

open Wire ControlMessageReader Encoders

/-! ### Messages -/

/-- A C string: the bytes in front of its terminating zero. -/
structure CString where
  /-- The bytes. -/
  bytes : List UInt8
  /-- None of them is the terminator. -/
  noNul : 0 ∉ bytes
deriving DecidableEq, Repr

/-- `struct sc_position`. -/
structure ScPosition where
  /-- `point.x`. -/
  x : ℤ
  /-- `point.y`. -/
  y : ℤ
  /-- `screen_size.width`. -/
  width : UInt16
  /-- `screen_size.height`. -/
  height : UInt16
deriving DecidableEq, Repr

/-- `struct sc_control_msg`, with its types in the order of `enum sc_control_msg_type`. A `char *`
is an optional string, since it may be `NULL`. -/
inductive ControlMsg where
  | injectKeycode (action keycode : ℤ) (repeatCount : UInt32) (metastate : ℤ)
  | injectText (text : Option CString)
  | injectTouchEvent (action actionButton buttons : ℤ) (pointerId : UInt64) (position : ScPosition)
    (pressure : ℚ)
  | injectScrollEvent (position : ScPosition) (hscroll vscroll : ℚ) (buttons : ℤ)
  | backOrScreenOn (action : ℤ)
  | expandNotificationPanel
  | expandSettingsPanel
  | collapsePanels
  | getClipboard (copyKey : ℤ)
  | setClipboard (sequence : UInt64) (text : Option CString) (paste : Bool)
  | setDisplayPower (on : Bool)
  | rotateDevice
  | uhidCreate (id vendorId productId : UInt16) (name : Option CString) (reportDesc : List UInt8)
  | uhidInput (id : UInt16) (data : List UInt8)
  | uhidDestroy (id : UInt16)
  | openHardKeyboardSettings
  | startApp (name : Option CString)
  | resetVideo
  | cameraSetTorch (on : Bool)
  | cameraZoomIn
  | cameraZoomOut
  | resizeDisplay (width height : UInt16)
deriving DecidableEq, Repr

/-- `enum sc_control_msg_type`. -/
def ControlMsg.type : ControlMsg → ℕ
  | .injectKeycode .. => 0
  | .injectText .. => 1
  | .injectTouchEvent .. => 2
  | .injectScrollEvent .. => 3
  | .backOrScreenOn .. => 4
  | .expandNotificationPanel => 5
  | .expandSettingsPanel => 6
  | .collapsePanels => 7
  | .getClipboard .. => 8
  | .setClipboard .. => 9
  | .setDisplayPower .. => 10
  | .rotateDevice => 11
  | .uhidCreate .. => 12
  | .uhidInput .. => 13
  | .uhidDestroy .. => 14
  | .openHardKeyboardSettings => 15
  | .startApp .. => 16
  | .resetVideo => 17
  | .cameraSetTorch .. => 18
  | .cameraZoomIn => 19
  | .cameraZoomOut => 20
  | .resizeDisplay .. => 21

/-- `sc_control_msg_is_droppable`. -/
def ControlMsg.isDroppable (msg : ControlMsg) : Bool :=
  msg.type != 12 && msg.type != 14

/-! ### Fields -/

/-- `SC_CONTROL_MSG_MAX_SIZE`. -/
def controlMsgMaxSize : ℕ := 2 ^ 18

/-- The conversion of a `float` to an integer: towards zero. -/
def truncate (f : ℚ) : ℤ :=
  if 0 ≤ f then ⌊f⌋ else ⌈f⌉

/-- `sc_float_to_u16fp`; none if an assertion fails. -/
def floatToU16fp (f : ℚ) : Option ℤ :=
  if 0 ≤ f ∧ f ≤ 1 then
    let u := truncate (f * 2 ^ 16)
    if 0xffff ≤ u then if u = 0x10000 then some 0xffff else none else some u
  else none

/-- `sc_float_to_i16fp`; none if an assertion fails. -/
def floatToI16fp (f : ℚ) : Option ℤ :=
  if -1 ≤ f ∧ f ≤ 1 then
    let i := truncate (f * 2 ^ 15)
    if -0x8000 ≤ i then
      if 0x7fff ≤ i then if i = 0x8000 then some 0x7fff else none else some i
    else none
  else none

/-- `CLAMP(scroll / 16, -1, 1)`. -/
def scrollNorm (scroll : ℚ) : ℚ :=
  min (max (scroll / 16) (-1)) 1

/-- `write_position`. -/
def writePosition (position : ScPosition) : List UInt8 :=
  ofInt 4 position.x ++ (ofInt 4 position.y ++
    (ofInt 2 position.width.toNat ++ ofInt 2 position.height.toNat))

/-- `sc_str_utf8_truncation_index`; none if it reads in front of the text. -/
def strUtf8TruncationIndex (utf8 : CString) (maxLen : ℕ) : Option ℕ :=
  Utf.truncationIndex utf8.bytes maxLen

/-- `write_string_payload`. -/
def writeStringPayload (utf8 : Option CString) (maxLen : ℕ) : Option (List UInt8) :=
  match utf8 with
  | none => some []
  | some utf8 => do return utf8.bytes.take (← strUtf8TruncationIndex utf8 maxLen)

/-- A length of `sizeBytes` bytes and a text. -/
def writeSizedString (sizeBytes : ℕ) (utf8 : Option CString) (maxLen : ℕ) :
    Option (List UInt8) := do
  let payload ← writeStringPayload utf8 maxLen
  return ofInt sizeBytes payload.length ++ payload

/-- `write_string`. -/
def writeString (utf8 : Option CString) (maxLen : ℕ) : Option (List UInt8) :=
  writeSizedString 4 utf8 maxLen

/-- `write_string_tiny`; none if an assertion fails. -/
def writeStringTiny (utf8 : Option CString) (maxLen : ℕ) : Option (List UInt8) :=
  if maxLen ≤ 0xff then writeSizedString 1 utf8 maxLen else none

/-- What `sc_control_msg_serialize` writes behind the type. -/
def ControlMsg.payload : ControlMsg → Option (List UInt8)
  | .injectKeycode action keycode repeatCount metastate =>
    some (ofInt 1 action ++ (ofInt 4 keycode ++ (ofInt 4 repeatCount.toNat ++ ofInt 4 metastate)))
  | .injectText text => writeString text injectTextMaxLength
  | .injectTouchEvent action actionButton buttons pointerId position pressure => do
    let pressure ← floatToU16fp pressure
    return ofInt 1 action ++ (ofInt 8 pointerId.toNat ++ (writePosition position ++
      (ofInt 2 pressure ++ (ofInt 4 actionButton ++ ofInt 4 buttons))))
  | .injectScrollEvent position hscroll vscroll buttons => do
    let hscroll ← floatToI16fp (scrollNorm hscroll)
    let vscroll ← floatToI16fp (scrollNorm vscroll)
    return writePosition position ++ (ofInt 2 hscroll ++ (ofInt 2 vscroll ++ ofInt 4 buttons))
  | .backOrScreenOn action => some (ofInt 1 action)
  | .getClipboard copyKey => some (ofInt 1 copyKey)
  | .setClipboard sequence text paste => do
    let text ← writeString text clipboardTextMaxLength
    return ofInt 8 sequence.toNat ++ (ofInt 1 (if paste then 1 else 0) ++ text)
  | .setDisplayPower on => some (ofInt 1 (if on then 1 else 0))
  | .uhidCreate id vendorId productId name reportDesc => do
    let name ← writeStringTiny name 127
    return ofInt 2 id.toNat ++ (ofInt 2 vendorId.toNat ++ (ofInt 2 productId.toNat ++ (name ++
      (ofInt 2 reportDesc.length ++ reportDesc))))
  | .uhidInput id data => some (ofInt 2 id.toNat ++ (ofInt 2 data.length ++ data))
  | .uhidDestroy id => some (ofInt 2 id.toNat)
  | .startApp name => writeStringTiny name 255
  | .cameraSetTorch on => some (ofInt 1 (if on then 1 else 0))
  | .resizeDisplay width height => some (ofInt 2 width.toNat ++ ofInt 2 height.toNat)
  | .expandNotificationPanel | .expandSettingsPanel | .collapsePanels | .rotateDevice
  | .openHardKeyboardSettings | .resetVideo | .cameraZoomIn | .cameraZoomOut => some []

/-- `sc_control_msg_serialize`; none if an assertion fails. -/
def ControlMsg.serialize (msg : ControlMsg) : Option (List UInt8) := do
  return ofInt 1 msg.type ++ (← msg.payload)

/-! ### What the phone reads -/

/-- The text is well-formed UTF-8. -/
def WellFormed (text : Option CString) : Prop :=
  ∀ utf8, text = some utf8 → ∃ chars : List Char, utf8.bytes = chars.flatMap String.utf8EncodeChar

/-- The values of the fields that their C types leave open: an `enum` written as one byte is one,
any other `enum` and a coordinate has 32 bits, a report is shorter than its length field, a text is
UTF-8. -/
def ControlMsg.InRange : ControlMsg → Prop
  | .injectKeycode action keycode _ metastate =>
    (0 ≤ action ∧ action < 256) ∧ IsInt32 keycode ∧ IsInt32 metastate
  | .injectText text => WellFormed text
  | .injectTouchEvent action actionButton buttons _ position _ =>
    (0 ≤ action ∧ action < 256) ∧ IsInt32 actionButton ∧ IsInt32 buttons ∧
      IsInt32 position.x ∧ IsInt32 position.y
  | .injectScrollEvent position _ _ buttons =>
    IsInt32 position.x ∧ IsInt32 position.y ∧ IsInt32 buttons
  | .backOrScreenOn action => 0 ≤ action ∧ action < 256
  | .getClipboard copyKey => 0 ≤ copyKey ∧ copyKey < 256
  | .setClipboard _ text _ => WellFormed text
  | .uhidCreate _ _ _ name reportDesc => WellFormed name ∧ reportDesc.length < 65536
  | .uhidInput _ data => data.length < 65536
  | .startApp name => WellFormed name
  | _ => True

/-- A text as the phone reads it: cut between two characters; empty for `NULL`. -/
def DecodesText (limit : ℕ) : Option CString → List UInt16 → Prop
  | none, units => units = []
  | some utf8, units => ∃ chars p, utf8.bytes = chars.flatMap String.utf8EncodeChar ∧
    Utf.IsLongestPrefix limit chars p ∧ units = p.flatMap Utf.utf16

/-- A fraction as the phone reads it: less by no more than a fixed point unit, and 1 as 1. -/
def DecodesFraction (f v : ℚ) : Prop :=
  v ≤ f ∧ f < v + 1 / 2 ^ 16 ∧ (f = 1 → v = 1)

/-- A scroll as the phone reads it: the scroll cut to 16, rounded towards zero. -/
def DecodesScroll (scroll v : ℚ) : Prop :=
  |scrollNorm scroll * 16 - v| < 1 / 2 ^ 11 ∧ |v| ≤ |scrollNorm scroll * 16| ∧
    (16 ≤ |scroll| → v = scrollNorm scroll * 16)

/-- The message that the client's message stands for. -/
def ControlMsg.Decodes : ControlMsg → ControlMessage → Prop
  | .injectKeycode action keycode repeatCount metastate, m =>
    m = .injectKeycode action keycode (Int.bmod repeatCount.toNat (2 ^ 32)) metastate
  | .injectText text, m =>
    ∃ units, DecodesText injectTextMaxLength text units ∧ m = .injectText units
  | .injectTouchEvent action actionButton buttons pointerId position pressure, m =>
    ∃ v, DecodesFraction pressure v ∧
      m = .injectTouchEvent action (Int.bmod pointerId.toNat (2 ^ 64))
        ⟨position.x, position.y, position.width.toNat, position.height.toNat⟩ v actionButton buttons
  | .injectScrollEvent position hscroll vscroll buttons, m =>
    ∃ h v, DecodesScroll hscroll h ∧ DecodesScroll vscroll v ∧
      m = .injectScrollEvent
        ⟨position.x, position.y, position.width.toNat, position.height.toNat⟩ h v buttons
  | .backOrScreenOn action, m => m = .backOrScreenOn action
  | .getClipboard copyKey, m => m = .getClipboard copyKey
  | .setClipboard sequence text paste, m =>
    ∃ units, DecodesText clipboardTextMaxLength text units ∧
      m = .setClipboard (Int.bmod sequence.toNat (2 ^ 64)) units paste
  | .setDisplayPower on, m => m = .setDisplayPower on
  | .uhidCreate id vendorId productId name reportDesc, m =>
    ∃ units, DecodesText 127 name units ∧
      m = .uhidCreate id.toNat vendorId.toNat productId.toNat units reportDesc
  | .uhidInput id data, m => m = .uhidInput id.toNat data
  | .uhidDestroy id, m => m = .uhidDestroy id.toNat
  | .startApp name, m => ∃ units, DecodesText 255 name units ∧ m = .startApp units
  | .cameraSetTorch on, m => m = .cameraSetTorch on
  | .resizeDisplay width height, m => m = .resizeDisplay width.toNat height.toNat
  | msg, m => m = .empty msg.type

/-- A fraction that the fixed point form has room for: 1, or at least a unit less. -/
def IsFixedPoint (unit f : ℚ) : Prop :=
  f < 1 - unit ∨ f = 1

/-- The fractions of the message have room in their fixed point form. -/
def ControlMsg.Fractions : ControlMsg → Prop
  | .injectTouchEvent _ _ _ _ _ pressure =>
    0 ≤ pressure ∧ pressure ≤ 1 ∧ IsFixedPoint (1 / 2 ^ 16) pressure
  | .injectScrollEvent _ hscroll vscroll _ =>
    IsFixedPoint (1 / 2 ^ 15) (scrollNorm hscroll) ∧ IsFixedPoint (1 / 2 ^ 15) (scrollNorm vscroll)
  | _ => True

/-! ### Fixed point numbers -/

/-- Rounding towards zero loses less than 1, and no sign. -/
theorem truncate_spec (f : ℚ) : |f - truncate f| < 1 ∧ |(truncate f : ℚ)| ≤ |f| := by
  unfold truncate
  split
  · next hf =>
    have hfloor : (0 : ℚ) ≤ ⌊f⌋ := by exact_mod_cast Int.floor_nonneg.2 hf
    have hle := Int.floor_le f
    have hlt := Int.lt_floor_add_one f
    rw [abs_of_nonneg (by linarith), abs_of_nonneg hfloor, abs_of_nonneg hf]
    exact ⟨by linarith, hle⟩
  · next hf =>
    have hneg : f < 0 := not_le.1 hf
    have hceil : (⌈f⌉ : ℚ) ≤ 0 := by exact_mod_cast Int.ceil_nonpos.2 hneg.le
    have hle := Int.le_ceil f
    have hlt := Int.ceil_lt_add_one f
    rw [abs_sub_comm, abs_of_nonneg (by linarith), abs_of_nonpos hceil, abs_of_neg hneg]
    exact ⟨by linarith, by linarith⟩

/-- A positive bound is reached after rounding exactly if it is reached before. -/
theorem le_truncate_iff {n : ℤ} (hn : 0 < n) (f : ℚ) : n ≤ truncate f ↔ (n : ℚ) ≤ f := by
  unfold truncate
  split
  · exact Int.le_floor
  · next hf =>
    have hneg : f < 0 := not_le.1 hf
    have hceil : ⌈f⌉ ≤ 0 := Int.ceil_nonpos.2 hneg.le
    have hpos : (0 : ℚ) < n := by exact_mod_cast hn
    exact ⟨fun h ↦ by omega, fun h ↦ by linarith⟩

/-- Rounding towards zero leaves integers alone. -/
theorem truncate_intCast (n : ℤ) : truncate n = n := by
  unfold truncate
  split
  · exact Int.floor_intCast n
  · exact Int.ceil_intCast n

theorem floatToU16fp_one : floatToU16fp 1 = some 0xffff := by
  have hu : truncate (1 * 2 ^ 16) = 0x10000 := by
    have h := truncate_intCast 0x10000
    norm_num at h ⊢
    exact h
  rw [floatToU16fp, hu]
  norm_num

theorem floatToU16fp_of_lt {f : ℚ} (hf : 0 ≤ f) (hlt : f < 1 - 1 / 2 ^ 16) :
    floatToU16fp f = some (truncate (f * 2 ^ 16)) := by
  have hu : ¬(0xffff : ℤ) ≤ truncate (f * 2 ^ 16) := by
    rw [le_truncate_iff (by decide)]
    norm_num at hlt ⊢
    linarith
  have hone : f ≤ 1 := by
    norm_num at hlt
    linarith
  rw [floatToU16fp, if_pos ⟨hf, hone⟩, if_neg hu]

/-- **`sc_float_to_u16fp` fails** exactly outside its range and in the last unit below 1. -/
theorem floatToU16fp_isSome_iff (f : ℚ) :
    (floatToU16fp f).isSome ↔ 0 ≤ f ∧ f ≤ 1 ∧ IsFixedPoint (1 / 2 ^ 16) f := by
  constructor
  · intro h
    by_cases hrange : 0 ≤ f ∧ f ≤ 1
    · refine ⟨hrange.1, hrange.2, ?_⟩
      rw [floatToU16fp, if_pos hrange] at h
      rcases lt_or_ge f (1 - 1 / 2 ^ 16) with hlt | hge
      · exact .inl hlt
      · have hu : (0xffff : ℤ) ≤ truncate (f * 2 ^ 16) := by
          rw [le_truncate_iff (by decide)]
          norm_num at hge ⊢
          linarith
        rw [if_pos hu] at h
        have hmax : truncate (f * 2 ^ 16) = 0x10000 := by
          by_contra hne
          rw [if_neg hne] at h
          exact Bool.false_ne_true h
        have hle := (le_truncate_iff (by decide) (f * 2 ^ 16)).1 hmax.ge
        refine .inr (le_antisymm hrange.2 ?_)
        norm_num at hle
        linarith
    · rw [floatToU16fp, if_neg hrange] at h
      exact absurd h Bool.false_ne_true
  · rintro ⟨hf, -, hlt | rfl⟩
    · rw [floatToU16fp_of_lt hf hlt]
      rfl
    · rw [floatToU16fp_one]
      rfl

/-- What `sc_float_to_u16fp` returns stands for the fraction. -/
theorem floatToU16fp_spec {f : ℚ} {u : ℤ} (h : floatToU16fp f = some u) :
    DecodesFraction f (u16FixedPointToFloat u) := by
  obtain ⟨hf, -, hlt | rfl⟩ := (floatToU16fp_isSome_iff f).1 (by rw [h]; rfl)
  · rw [floatToU16fp_of_lt hf hlt, Option.some.injEq] at h
    have hfloor : truncate (f * 2 ^ 16) = ⌊f * 2 ^ 16⌋ := if_pos (by positivity)
    have hle := Int.floor_le (f * 2 ^ 16)
    have hnext := Int.lt_floor_add_one (f * 2 ^ 16)
    have hpos : 0 ≤ ⌊f * 2 ^ 16⌋ := Int.floor_nonneg.2 (by positivity)
    have hmax : ⌊f * 2 ^ 16⌋ < 0xffff := by
      rw [Int.floor_lt]
      norm_num at hlt ⊢
      linarith
    rw [hfloor] at h
    rw [u16FixedPointToFloat, ← h, Int.emod_eq_of_lt hpos (by omega)]
    rw [if_neg (by omega)]
    refine ⟨?_, ?_, fun hone ↦ ?_⟩
    · rw [div_le_iff₀ (by norm_num)]
      exact hle
    · rw [← add_div, lt_div_iff₀ (by norm_num)]
      exact hnext
    · subst hone
      norm_num at hlt
  · rw [floatToU16fp_one, Option.some.injEq] at h
    subst h
    norm_num [u16FixedPointToFloat, DecodesFraction]

theorem floatToI16fp_one : floatToI16fp 1 = some 0x7fff := by
  have hi : truncate (1 * 2 ^ 15) = 0x8000 := by
    have h := truncate_intCast 0x8000
    norm_num at h ⊢
    exact h
  rw [floatToI16fp, hi]
  norm_num

/-- A fraction in `[-1, 1]` fills 16 bits. -/
theorem neg_le_truncate {f : ℚ} (hf : -1 ≤ f ∧ f ≤ 1) : -0x8000 ≤ truncate (f * 2 ^ 15) := by
  have habs : |f * 2 ^ 15| ≤ 2 ^ 15 := by
    rw [abs_mul, abs_of_pos (by norm_num : (0 : ℚ) < 2 ^ 15)]
    have h := abs_le.2 hf
    linarith
  have h := neg_le_of_abs_le ((truncate_spec (f * 2 ^ 15)).2.trans habs)
  have hint : ((-0x8000 : ℤ) : ℚ) ≤ truncate (f * 2 ^ 15) := by
    norm_num at h ⊢
    exact h
  exact_mod_cast hint

theorem floatToI16fp_of_lt {f : ℚ} (hf : -1 ≤ f) (hlt : f < 1 - 1 / 2 ^ 15) :
    floatToI16fp f = some (truncate (f * 2 ^ 15)) := by
  have hi : ¬(0x7fff : ℤ) ≤ truncate (f * 2 ^ 15) := by
    rw [le_truncate_iff (by decide)]
    norm_num at hlt ⊢
    linarith
  have hone : f ≤ 1 := by
    norm_num at hlt
    linarith
  rw [floatToI16fp, if_pos ⟨hf, hone⟩, if_pos (neg_le_truncate ⟨hf, hone⟩), if_neg hi]

/-- **`sc_float_to_i16fp` fails** exactly outside its range and in the last unit below 1. -/
theorem floatToI16fp_isSome_iff (f : ℚ) :
    (floatToI16fp f).isSome ↔ -1 ≤ f ∧ f ≤ 1 ∧ IsFixedPoint (1 / 2 ^ 15) f := by
  constructor
  · intro h
    by_cases hrange : -1 ≤ f ∧ f ≤ 1
    · refine ⟨hrange.1, hrange.2, ?_⟩
      rw [floatToI16fp, if_pos hrange, if_pos (neg_le_truncate hrange)] at h
      rcases lt_or_ge f (1 - 1 / 2 ^ 15) with hlt | hge
      · exact .inl hlt
      · have hi : (0x7fff : ℤ) ≤ truncate (f * 2 ^ 15) := by
          rw [le_truncate_iff (by decide)]
          norm_num at hge ⊢
          linarith
        rw [if_pos hi] at h
        have hmax : truncate (f * 2 ^ 15) = 0x8000 := by
          by_contra hne
          rw [if_neg hne] at h
          exact Bool.false_ne_true h
        have hle := (le_truncate_iff (by decide) (f * 2 ^ 15)).1 hmax.ge
        refine .inr (le_antisymm hrange.2 ?_)
        norm_num at hle
        linarith
    · rw [floatToI16fp, if_neg hrange] at h
      exact absurd h Bool.false_ne_true
  · rintro ⟨hf, -, hlt | rfl⟩
    · rw [floatToI16fp_of_lt hf hlt]
      rfl
    · rw [floatToI16fp_one]
      rfl

theorem scrollNorm_range (scroll : ℚ) : -1 ≤ scrollNorm scroll ∧ scrollNorm scroll ≤ 1 :=
  ⟨le_min (le_max_right _ _) (by norm_num), min_le_right _ _⟩

/-- A scroll of 16 or more is written as 1 or -1. -/
theorem scrollNorm_of_le {scroll : ℚ} (h : 16 ≤ |scroll|) :
    scrollNorm scroll = 1 ∨ scrollNorm scroll = -1 := by
  rcases le_abs.1 h with h | h
  · have hdiv : 1 ≤ scroll / 16 := by linarith
    exact .inl (min_eq_right (hdiv.trans (le_max_left _ _)))
  · have hdiv : scroll / 16 ≤ -1 := by linarith
    refine .inr ?_
    rw [scrollNorm, max_eq_right hdiv]
    exact min_eq_left (by norm_num)

/-- What `sc_float_to_i16fp` returns stands for the scroll, and has 16 bits. -/
theorem floatToI16fp_spec {scroll : ℚ} {i : ℤ} (h : floatToI16fp (scrollNorm scroll) = some i) :
    (-2 ^ 15 ≤ i ∧ i < 2 ^ 15) ∧ DecodesScroll scroll (i16FixedPointToFloat i * 16) := by
  obtain ⟨hf, hone, hlt | heq⟩ := (floatToI16fp_isSome_iff _).1 (by rw [h]; rfl)
  · rw [floatToI16fp_of_lt hf hlt, Option.some.injEq] at h
    have hmax : ¬(0x7fff : ℤ) ≤ i := by
      rw [← h, le_truncate_iff (by decide)]
      norm_num at hlt ⊢
      linarith
    have hmin : -0x8000 ≤ i := by
      rw [← h]
      exact neg_le_truncate ⟨hf, hone⟩
    obtain ⟨hnear, hle⟩ := truncate_spec (scrollNorm scroll * 2 ^ 15)
    rw [h] at hnear hle
    have hval : i16FixedPointToFloat i * 16 = i / 2 ^ 11 := by
      rw [i16FixedPointToFloat, if_neg (by omega)]
      ring
    have hscale : scrollNorm scroll * 16 = scrollNorm scroll * 2 ^ 15 / 2 ^ 11 := by ring
    have hunit : (0 : ℚ) < 2 ^ 11 := by norm_num
    refine ⟨⟨by omega, by omega⟩, ?_⟩
    rw [DecodesScroll, hval, hscale]
    refine ⟨?_, ?_, fun hbig ↦ ?_⟩
    · rw [← sub_div, abs_div, abs_of_pos hunit]
      exact div_lt_div_of_pos_right hnear hunit
    · rw [abs_div, abs_div, abs_of_pos hunit]
      exact div_le_div_of_nonneg_right hle hunit.le
    · obtain heq | heq := scrollNorm_of_le hbig
      · rw [heq] at hlt
        norm_num at hlt
      · have hi := truncate_intCast (-0x8000)
        rw [heq] at h ⊢
        norm_num at hi h ⊢
        rw [← h, hi]
        norm_num
  · rw [heq, floatToI16fp_one, Option.some.injEq] at h
    subst h
    norm_num [i16FixedPointToFloat, DecodesScroll, heq]

/-! ### Fields -/

/-- An unsigned number of which the reader makes a signed one. -/
theorem ofInt_bmod (k : ℕ) (v : ℤ) : ofInt k (Int.bmod v (256 ^ k)) = ofInt k v := by
  have hcast : (256 : ℤ) ^ k = ((256 ^ k : ℕ) : ℤ) := by norm_cast
  rw [ofInt, ofInt, hcast, Int.bmod_emod]

theorem parses_readInt_bmod (v : ℤ) : Parses readInt (ofInt 4 v) (Int.bmod v (2 ^ 32)) := by
  have hlo := Int.le_bmod (x := v) (m := 2 ^ 32) (by norm_num)
  have hhi := Int.bmod_lt (x := v) (m := 2 ^ 32) (by norm_num)
  have h := parses_readInt (v := Int.bmod v (2 ^ 32)) ⟨by omega, by omega⟩
  have hbytes : ofInt 4 (Int.bmod v (2 ^ 32)) = ofInt 4 v := ofInt_bmod 4 v
  rwa [hbytes] at h

theorem parses_readLong_bmod (v : ℤ) : Parses readLong (ofInt 8 v) (Int.bmod v (2 ^ 64)) := by
  have hlo := Int.le_bmod (x := v) (m := 2 ^ 64) (by norm_num)
  have hhi := Int.bmod_lt (x := v) (m := 2 ^ 64) (by norm_num)
  have h := parses_readLong (v := Int.bmod v (2 ^ 64)) ⟨by omega, by omega⟩
  have hbytes : ofInt 8 (Int.bmod v (2 ^ 64)) = ofInt 8 v := ofInt_bmod 8 v
  rwa [hbytes] at h

theorem parses_readUInt16 (n : UInt16) : Parses readUnsignedShort (ofInt 2 n.toNat) n.toNat :=
  parses_readUnsignedShort (by omega) (by have := n.toNat_lt; omega)

theorem parses_parsePosition {position : ScPosition} (hx : IsInt32 position.x)
    (hy : IsInt32 position.y) :
    Parses parsePosition (writePosition position)
      ⟨position.x, position.y, position.width.toNat, position.height.toNat⟩ :=
  (parses_readInt hx).bind ((parses_readInt hy).bind
    ((parses_readUInt16 position.width).bind ((parses_readUInt16 position.height).map _)))

/-- The reader does not care that a pressure of `0x8000` or more is negative to it. -/
theorem parses_pressure_of_lt (u : ℤ) :
    ∃ v, Parses readShort (ofInt 2 u) v ∧ u16FixedPointToFloat v = u16FixedPointToFloat u := by
  have hlo := Int.le_bmod (x := u) (m := 256 ^ 2) (by norm_num)
  have hhi := Int.bmod_lt (x := u) (m := 256 ^ 2) (by norm_num)
  norm_num at hlo hhi
  refine ⟨Int.bmod u (256 ^ 2), ?_, ?_⟩
  · have h : Parses (Parser.int 2 : Reader ℤ) (ofInt 2 (Int.bmod u (256 ^ 2))) _ :=
      parses_int (by norm_num; omega) (by norm_num; omega)
    rwa [ofInt_bmod] at h
  · have hmod : Int.bmod u (256 ^ 2) % 0x10000 = u % 0x10000 := Int.bmod_emod
    rw [u16FixedPointToFloat, u16FixedPointToFloat, hmod]

theorem parses_parseByteArray {k : ℕ} (bytes : List UInt8) (hk : bytes.length < 256 ^ k)
    (hint : bytes.length < 2 ^ 31) :
    Parses (parseByteArray k) (ofInt k bytes.length ++ bytes) bytes := by
  have hcast : ((bytes.length : ℤ) % 256 ^ k).toNat = bytes.length := by
    rw [Int.emod_eq_of_lt (by omega) (by exact_mod_cast hk), Int.toNat_natCast]
  have huint : Parses (Parser.uint k : Reader ℕ) _ _ := parses_uint k bytes.length
  have hlen := huint.map fun n : ℕ ↦ Int.bmod n (2 ^ 32)
  rw [Nat.mod_eq_of_lt hk, Int.bmod_eq_of_le (by omega) (by omega)] at hlen
  have hfield : Parses (parseBufferLength k) (ofInt k bytes.length) (bytes.length : ℤ) := by
    rw [ofInt, hcast]
    exact hlen
  refine hfield.bind ?_
  rw [if_neg (by omega), Int.toNat_natCast]
  exact parses_take bytes

/-- **A text** is read back up to the character that the limit falls into. -/
theorem parses_writeSizedString {k limit : ℕ} {text : Option CString} (htext : WellFormed text)
    (hk : limit < 256 ^ k) (hint : limit < 2 ^ 31) :
    ∃ bytes units, writeSizedString k text limit = some bytes ∧ bytes.length ≤ k + limit ∧
      DecodesText limit text units ∧ Parses (parseString k) bytes units := by
  cases text with
  | none =>
    have h := (parses_parseByteArray (k := k) [] (Nat.zero_lt_of_lt hk)
      (by decide)).map Utf.decodeUtf8
    exact ⟨_, [], rfl, by simp, rfl, h⟩
  | some utf8 =>
    obtain ⟨chars, hchars⟩ := htext utf8 rfl
    obtain ⟨p, hp, hindex, htake⟩ := Utf.truncationIndex_flatMap chars limit
    have hpayload : writeStringPayload (some utf8) limit =
        some (p.flatMap String.utf8EncodeChar) := by
      rw [writeStringPayload, strUtf8TruncationIndex, hchars, hindex]
      show some (List.take _ _) = _
      rw [htake]
    have hfits := hp.fits
    have h := (parses_parseByteArray (k := k) (p.flatMap String.utf8EncodeChar) (by omega)
      (by omega)).map Utf.decodeUtf8
    rw [Utf.decodeUtf8_flatMap] at h
    refine ⟨_, _, ?_, ?_, ⟨chars, p, hchars, hp, rfl⟩, h⟩
    · rw [writeSizedString, hpayload]
      rfl
    · rw [List.length_append, length_ofInt]
      omega

theorem parses_writeString (limit : ℕ) {text : Option CString} (htext : WellFormed text)
    (hlimit : limit < 2 ^ 31) :
    ∃ bytes units, writeString text limit = some bytes ∧ bytes.length ≤ 4 + limit ∧
      DecodesText limit text units ∧ Parses (parseString 4) bytes units :=
  parses_writeSizedString htext (hlimit.trans (by norm_num)) hlimit

theorem parses_writeStringTiny (limit : ℕ) {text : Option CString} (htext : WellFormed text)
    (hlimit : limit ≤ 0xff) :
    ∃ bytes units, writeStringTiny text limit = some bytes ∧ bytes.length ≤ 1 + limit ∧
      DecodesText limit text units ∧ Parses (parseString 1) bytes units := by
  rw [writeStringTiny, if_pos hlimit]
  exact parses_writeSizedString htext (by omega) (by omega)

/-! ### Messages -/

theorem parses_empty {type : ℕ} (hparse : parse type = return .empty type) (htype : type < 256) :
    Parses ControlMessageReader.read (ofInt 1 type ++ []) (.empty type) := by
  refine parses_read type htype ?_
  rw [hparse]
  exact .pure _

theorem serialize_eq_some {msg : ControlMsg} {bytes : List UInt8} (h : msg.serialize = some bytes) :
    ∃ payload, msg.payload = some payload ∧ bytes = ofInt 1 msg.type ++ payload := by
  obtain ⟨payload, hpayload, hbytes⟩ := Option.bind_eq_some_iff.1 h
  exact ⟨payload, hpayload, (Option.some.inj hbytes).symm⟩

/-- **One message**: what the client writes fits its buffer, and the phone reads it as the message
it stands for, whatever follows it. -/
theorem parses_serialize {msg : ControlMsg} {bytes : List UInt8} (hrange : msg.InRange)
    (h : msg.serialize = some bytes) :
    bytes.length ≤ controlMsgMaxSize ∧
      ∃ m, msg.Decodes m ∧ Parses ControlMessageReader.read bytes m := by
  obtain ⟨payload, hpayload, rfl⟩ := serialize_eq_some h
  rw [List.length_append, length_ofInt, controlMsgMaxSize]
  cases msg with
  | injectKeycode action keycode repeatCount metastate =>
    obtain ⟨haction, hkeycode, hmeta⟩ := hrange
    obtain rfl := Option.some.inj hpayload
    exact ⟨by simp, _, rfl, parses_read 0 (by decide)
      ((parses_readUnsignedByte haction.1 haction.2).bind ((parses_readInt hkeycode).bind
        ((parses_readInt_bmod _).bind ((parses_readInt hmeta).map _))))⟩
  | injectText text =>
    obtain ⟨written, units, hwritten, hlen, htext, hparses⟩ :=
      parses_writeString injectTextMaxLength hrange (by decide)
    obtain rfl := Option.some.inj (hwritten.symm.trans hpayload)
    exact ⟨by rw [injectTextMaxLength] at hlen; omega, _, ⟨units, htext, rfl⟩,
      parses_read 1 (by decide) (hparses.map _)⟩
  | injectTouchEvent action actionButton buttons pointerId position pressure =>
    obtain ⟨haction, hactionButton, hbuttons, hx, hy⟩ := hrange
    obtain ⟨u, hu, heq⟩ := Option.bind_eq_some_iff.1 hpayload
    obtain rfl := Option.some.inj heq
    obtain ⟨v, hv, hval⟩ := parses_pressure_of_lt u
    have hfields : Parses parseInjectTouchEvent _ (.injectTouchEvent action
        (Int.bmod pointerId.toNat (2 ^ 64))
        ⟨position.x, position.y, position.width.toNat, position.height.toNat⟩
        (u16FixedPointToFloat v) actionButton buttons) :=
      (parses_readUnsignedByte haction.1 haction.2).bind ((parses_readLong_bmod _).bind
        ((parses_parsePosition hx hy).bind (hv.bind ((parses_readInt hactionButton).bind
          ((parses_readInt hbuttons).map _)))))
    rw [hval] at hfields
    exact ⟨by simp [writePosition], _, ⟨_, floatToU16fp_spec hu, rfl⟩,
      parses_read 2 (by decide) hfields⟩
  | injectScrollEvent position hscroll vscroll buttons =>
    obtain ⟨hx, hy, hbuttons⟩ := hrange
    obtain ⟨i, hi, hrest⟩ := Option.bind_eq_some_iff.1 hpayload
    obtain ⟨j, hj, heq⟩ := Option.bind_eq_some_iff.1 hrest
    obtain rfl := Option.some.inj heq
    obtain ⟨hirange, hidecodes⟩ := floatToI16fp_spec hi
    obtain ⟨hjrange, hjdecodes⟩ := floatToI16fp_spec hj
    have hiparses : Parses readShort (ofInt 2 i) i := parses_int (by omega) (by omega)
    have hjparses : Parses readShort (ofInt 2 j) j := parses_int (by omega) (by omega)
    exact ⟨by simp [writePosition], _, ⟨_, _, hidecodes, hjdecodes, rfl⟩,
      parses_read 3 (by decide) ((parses_parsePosition hx hy).bind (hiparses.bind (hjparses.bind
        ((parses_readInt hbuttons).map _))))⟩
  | backOrScreenOn action =>
    obtain rfl := Option.some.inj hpayload
    exact ⟨by simp, _, rfl,
      parses_read 4 (by decide) ((parses_readUnsignedByte hrange.1 hrange.2).map _)⟩
  | getClipboard copyKey =>
    obtain rfl := Option.some.inj hpayload
    exact ⟨by simp, _, rfl,
      parses_read 8 (by decide) ((parses_readUnsignedByte hrange.1 hrange.2).map _)⟩
  | setClipboard sequence text paste =>
    obtain ⟨written, units, hwritten, hlen, htext, hparses⟩ :=
      parses_writeString clipboardTextMaxLength hrange (by decide)
    obtain ⟨written', hwritten', heq⟩ := Option.bind_eq_some_iff.1 hpayload
    obtain rfl := Option.some.inj (hwritten.symm.trans hwritten')
    obtain rfl := Option.some.inj heq
    have hpaste : Parses readByte (ofInt 1 (if paste then 1 else 0)) (if paste then 1 else 0) :=
      parses_int (by cases paste <;> decide) (by cases paste <;> decide)
    have hfields : Parses parseSetClipboard _ (.setClipboard (Int.bmod sequence.toNat (2 ^ 64))
        units (decide ((if paste then (1 : ℤ) else 0) ≠ 0))) :=
      (parses_readLong_bmod _).bind (hpaste.bind (hparses.map _))
    have hflag : decide ((if paste then (1 : ℤ) else 0) ≠ 0) = paste := by cases paste <;> decide
    rw [hflag] at hfields
    rw [clipboardTextMaxLength] at hlen
    refine ⟨?_, _, ⟨units, htext, rfl⟩, parses_read 9 (by decide) hfields⟩
    rw [List.length_append, List.length_append, length_ofInt, length_ofInt]
    omega
  | setDisplayPower on =>
    obtain rfl := Option.some.inj hpayload
    exact ⟨by simp, _, rfl, parses_read 10 (by decide) ((parses_readBoolean on).map _)⟩
  | uhidCreate id vendorId productId name reportDesc =>
    obtain ⟨hname, hdesc⟩ := hrange
    obtain ⟨written, units, hwritten, hlen, htext, hparses⟩ :=
      parses_writeStringTiny 127 hname (by decide)
    obtain ⟨written', hwritten', heq⟩ := Option.bind_eq_some_iff.1 hpayload
    obtain rfl := Option.some.inj (hwritten.symm.trans hwritten')
    obtain rfl := Option.some.inj heq
    refine ⟨?_, _, ⟨units, htext, rfl⟩, parses_read 12 (by decide)
      ((parses_readUInt16 id).bind ((parses_readUInt16 vendorId).bind
        ((parses_readUInt16 productId).bind (hparses.bind
          ((parses_parseByteArray reportDesc hdesc (by omega)).map _)))))⟩
    simp only [List.length_append, length_ofInt]
    omega
  | uhidInput id data =>
    obtain rfl := Option.some.inj hpayload
    have hdata : data.length < 65536 := hrange
    refine ⟨?_, _, rfl, parses_read 13 (by decide) ((parses_readUInt16 id).bind
      ((parses_parseByteArray data hdata (by omega)).map _))⟩
    simp only [List.length_append, length_ofInt]
    omega
  | uhidDestroy id =>
    obtain rfl := Option.some.inj hpayload
    exact ⟨by simp, _, rfl, parses_read 14 (by decide) ((parses_readUInt16 id).map _)⟩
  | startApp name =>
    obtain ⟨written, units, hwritten, hlen, htext, hparses⟩ :=
      parses_writeStringTiny 255 hrange (by decide)
    obtain rfl := Option.some.inj (hwritten.symm.trans hpayload)
    exact ⟨by omega, _, ⟨units, htext, rfl⟩, parses_read 16 (by decide) (hparses.map _)⟩
  | cameraSetTorch on =>
    obtain rfl := Option.some.inj hpayload
    exact ⟨by simp, _, rfl, parses_read 18 (by decide) ((parses_readBoolean on).map _)⟩
  | resizeDisplay width height =>
    obtain rfl := Option.some.inj hpayload
    exact ⟨by simp, _, rfl, parses_read 21 (by decide)
      ((parses_readUInt16 width).bind ((parses_readUInt16 height).map _))⟩
  | expandNotificationPanel | expandSettingsPanel | collapsePanels | rotateDevice
  | openHardKeyboardSettings | resetVideo | cameraZoomIn | cameraZoomOut =>
    obtain rfl := Option.some.inj hpayload
    exact ⟨by simp, _, rfl, parses_empty rfl (by decide)⟩

/-- **The client fails** on a fraction that has no room in its fixed point form, and on nothing
else. -/
theorem serialize_isSome_iff {msg : ControlMsg} (hrange : msg.InRange) :
    msg.serialize.isSome ↔ msg.Fractions := by
  have hpayload : msg.serialize.isSome ↔ msg.payload.isSome := by
    rw [ControlMsg.serialize]
    cases msg.payload <;> simp
  rw [hpayload]
  cases msg with
  | injectText text =>
    obtain ⟨written, -, hwritten, -⟩ :=
      parses_writeString injectTextMaxLength hrange (by decide)
    rw [ControlMsg.payload, hwritten]
    exact iff_of_true rfl trivial
  | injectTouchEvent action actionButton buttons pointerId position pressure =>
    rw [ControlMsg.Fractions, ← floatToU16fp_isSome_iff, ControlMsg.payload]
    cases floatToU16fp pressure <;> simp
  | injectScrollEvent position hscroll vscroll buttons =>
    have hnorm : ∀ scroll, IsFixedPoint (1 / 2 ^ 15) (scrollNorm scroll) ↔
        (floatToI16fp (scrollNorm scroll)).isSome := fun scroll ↦ by
      have hrange := scrollNorm_range scroll
      rw [floatToI16fp_isSome_iff]
      exact ⟨fun h ↦ ⟨hrange.1, hrange.2, h⟩, fun h ↦ h.2.2⟩
    rw [ControlMsg.Fractions, hnorm, hnorm, ControlMsg.payload]
    cases floatToI16fp (scrollNorm hscroll) <;> cases floatToI16fp (scrollNorm vscroll) <;> simp
  | setClipboard sequence text paste =>
    obtain ⟨written, -, hwritten, -⟩ :=
      parses_writeString clipboardTextMaxLength hrange (by decide)
    rw [ControlMsg.payload, hwritten]
    exact iff_of_true rfl trivial
  | uhidCreate id vendorId productId name reportDesc =>
    obtain ⟨written, -, hwritten, -⟩ :=
      parses_writeStringTiny 127 hrange.1 (by decide)
    rw [ControlMsg.payload, hwritten]
    exact iff_of_true rfl trivial
  | startApp name =>
    obtain ⟨written, -, hwritten, -⟩ :=
      parses_writeStringTiny 255 hrange (by decide)
    rw [ControlMsg.payload, hwritten]
    exact iff_of_true rfl trivial
  | injectKeycode | backOrScreenOn | expandNotificationPanel | expandSettingsPanel | collapsePanels
  | getClipboard | setDisplayPower | rotateDevice | uhidInput | uhidDestroy
  | openHardKeyboardSettings | resetVideo | cameraSetTorch | cameraZoomIn | cameraZoomOut
  | resizeDisplay =>
    exact iff_of_true rfl trivial

end AllRelay.Client
