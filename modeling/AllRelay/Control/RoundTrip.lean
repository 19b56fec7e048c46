import AllRelay.Control.Encoders
import AllRelay.Control.Message

/-!
# The browser's encoders and the phone's reader agree

`control_roundtrip` is the agreement of the five encoders of `app.js` with `ControlMessageReader`:
what the browser builds, one message after another, is read back message by message, and nothing is
left. Each message is verified on its own (`parses_encode`), in front of any bytes that follow, and
`Wire.Parses.many` puts the messages together.

An action is written as one byte, so it has to be one (`action_truncated`). A text is cut at its
last code point that fits (`truncateUTF8_spec`).
-/

namespace AllRelay.Encoders

open Wire ControlMessageReader

/-! ### Truncated text -/

theorem truncateFrom_spec {maxBytes : ℕ} (done chars : List Char)
    (hdone : (done.flatMap String.utf8EncodeChar).length ≤ maxBytes) :
    ∃ p, Utf.IsLongestPrefix maxBytes (done ++ chars) p ∧
      truncateFrom maxBytes (done.flatMap Utf.utf16) (chars.map Utf.utf16) =
        p.flatMap Utf.utf16 := by
  induction chars generalizing done with
  | nil => exact ⟨done, by rw [List.append_nil]; exact .refl hdone, rfl⟩
  | cons c chars ih =>
    have hout : done.flatMap Utf.utf16 ++ Utf.utf16 c = (done ++ [c]).flatMap Utf.utf16 := by simp
    rw [List.map_cons, truncateFrom, hout, Utf.encodeUtf8_flatMap]
    by_cases hfits : maxBytes < ((done ++ [c]).flatMap String.utf8EncodeChar).length
    · exact ⟨done, .of_next hdone hfits, by rw [if_pos hfits]⟩
    · obtain ⟨p, hp, heq⟩ := ih (done ++ [c]) (Nat.not_lt.1 hfits)
      rw [List.append_assoc] at hp
      exact ⟨p, hp, by rw [if_neg hfits, heq]⟩

/-- **Truncation keeps the longest prefix that fits**, and never cuts a code point. -/
theorem truncateUTF8_spec (maxBytes : ℕ) (chars : List Char) :
    ∃ p, Utf.IsLongestPrefix maxBytes chars p ∧
      truncateUTF8 (chars.flatMap Utf.utf16) maxBytes = p.flatMap Utf.utf16 := by
  obtain ⟨p, hp, heq⟩ := truncateFrom_spec [] chars (Nat.zero_le maxBytes)
  refine ⟨p, hp, ?_⟩
  rw [truncateUTF8, Utf.points_flatMap]
  exact heq

/-! ### Fields -/

theorem parses_readUnsignedByte {v : ℤ} (hlo : 0 ≤ v) (hhi : v < 256) :
    Parses readUnsignedByte (ofInt 1 v) v := by
  have huint : Parses (Parser.uint 1 : Reader ℕ) _ _ := parses_uint 1 (v % 256 ^ 1).toNat
  have h := huint.map fun n : ℕ ↦ (n : ℤ)
  have hv : (((v % 256 ^ 1).toNat % 256 ^ 1 : ℕ) : ℤ) = v := by
    norm_num
    omega
  rw [hv] at h
  exact h

theorem parses_readUnsignedShort {v : ℤ} (hlo : 0 ≤ v) (hhi : v < 65536) :
    Parses readUnsignedShort (ofInt 2 v) v := by
  have huint : Parses (Parser.uint 2 : Reader ℕ) _ _ := parses_uint 2 (v % 256 ^ 2).toNat
  have h := huint.map fun n : ℕ ↦ (n : ℤ)
  have hv : (((v % 256 ^ 2).toNat % 256 ^ 2 : ℕ) : ℤ) = v := by
    norm_num
    omega
  rw [hv] at h
  exact h

/-- The range of a signed 32-bit integer. -/
def IsInt32 (v : ℤ) : Prop :=
  -2 ^ 31 ≤ v ∧ v < 2 ^ 31

theorem parses_readInt {v : ℤ} (hv : IsInt32 v) : Parses readInt (ofInt 4 v) v := by
  obtain ⟨hlo, hhi⟩ := hv
  exact parses_int (by omega) (by omega)

/-- The range of a signed 64-bit integer. -/
def IsInt64 (v : ℤ) : Prop :=
  -2 ^ 63 ≤ v ∧ v < 2 ^ 63

theorem parses_readLong {v : ℤ} (hv : IsInt64 v) : Parses readLong (ofInt 8 v) v := by
  obtain ⟨hlo, hhi⟩ := hv
  exact parses_int (by omega) (by omega)

theorem parses_readBoolean (b : Bool) :
    Parses readBoolean (ofInt 1 (if b then 1 else 0)) b := by
  have h := (parses_readUnsignedByte (v := if b then 1 else 0) (by cases b <;> decide)
    (by cases b <;> decide)).map fun v : ℤ ↦ decide (v ≠ 0)
  cases b <;> exact h

/-- A string that fits the limit of its encoder is read back. -/
theorem parses_parseString {p : List Char} {limit : ℕ} (hlimit : limit < 2 ^ 31)
    (hp : (p.flatMap String.utf8EncodeChar).length ≤ limit) :
    Parses (parseString 4) (ofInt 4 (p.flatMap String.utf8EncodeChar).length ++
      p.flatMap String.utf8EncodeChar) (p.flatMap Utf.utf16) := by
  generalize hbytes : p.flatMap String.utf8EncodeChar = bytes at hp ⊢
  have hlen : Parses (parseBufferLength 4) (ofInt 4 bytes.length) (bytes.length : ℤ) := by
    have huint : Parses (Parser.uint 4 : Reader ℕ) _ _ :=
      parses_uint 4 ((bytes.length : ℤ) % 256 ^ 4).toNat
    have h := huint.map fun n : ℕ ↦ Int.bmod n (2 ^ 32)
    have hv : Int.bmod (((bytes.length : ℤ) % 256 ^ 4).toNat % 256 ^ 4 : ℕ) (2 ^ 32) =
        (bytes.length : ℤ) := by
      have hmod : (((bytes.length : ℤ) % 256 ^ 4).toNat % 256 ^ 4 : ℕ) = bytes.length := by
        norm_num
        omega
      rw [hmod]
      exact Int.bmod_eq_of_le (by omega) (by omega)
    rw [hv] at h
    exact h
  have harray : Parses (parseByteArray 4) (ofInt 4 bytes.length ++ bytes) bytes := by
    refine hlen.bind ?_
    rw [if_neg (by omega), Int.toNat_natCast]
    exact parses_take bytes
  have hstring := harray.map Utf.decodeUtf8
  rw [← hbytes, Utf.decodeUtf8_flatMap, hbytes] at hstring
  exact hstring

/-! ### Messages -/

/-- The arguments of an encoder as its callers pass them: integer fields of 32 bits (64 for the
pointer id), a screen size below 65536, a pressure of 0 or 1, well-formed text. -/
def ControlInput.InRange : ControlInput → Prop
  | .key action keycode repeatCount metaState =>
    IsInt32 action ∧ IsInt32 keycode ∧ IsInt32 repeatCount ∧ IsInt32 metaState
  | .text s => ∃ chars : List Char, s = chars.flatMap Utf.utf16
  | .touch action pointerId x y screenWidth screenHeight pressure actionButton buttons =>
    IsInt32 action ∧ IsInt64 pointerId ∧ IsInt32 x ∧ IsInt32 y ∧
      (0 ≤ screenWidth ∧ screenWidth < 65536) ∧ (0 ≤ screenHeight ∧ screenHeight < 65536) ∧
      (pressure = 0 ∨ pressure = 1) ∧ IsInt32 actionButton ∧ IsInt32 buttons
  | .setClipboard s _ => ∃ chars : List Char, s = chars.flatMap Utf.utf16
  | .setDisplayPower _ => True

/-- The action of a key or touch message is one byte. -/
def ControlInput.ActionIsByte : ControlInput → Prop
  | .key action .. | .touch action .. => 0 ≤ action ∧ action < 256
  | _ => True

/-- The message that a call of an encoder stands for. -/
def Decodes : ControlInput → ControlMessage → Prop
  | .key action keycode repeatCount metaState, m =>
    m = .injectKeycode action keycode repeatCount metaState
  | .text text, m => ∃ chars p, text = chars.flatMap Utf.utf16 ∧
    Utf.IsLongestPrefix injectTextMaxLength chars p ∧ m = .injectText (p.flatMap Utf.utf16)
  | .touch action pointerId x y screenWidth screenHeight pressure actionButton buttons, m =>
    m = .injectTouchEvent action pointerId ⟨x, y, screenWidth, screenHeight⟩ pressure actionButton
      buttons
  | .setClipboard text paste, m => ∃ chars p, text = chars.flatMap Utf.utf16 ∧
    Utf.IsLongestPrefix clipboardTextMaxLength chars p ∧
      m = .setClipboard 0 (p.flatMap Utf.utf16) paste
  | .setDisplayPower on, m => m = .setDisplayPower on

/-- A message is its type and its fields. -/
theorem parses_read (type : ℕ) (htype : type < 256) {bytes : List UInt8} {m : ControlMessage}
    (h : Parses (parse type) bytes m) :
    Parses ControlMessageReader.read (ofInt 1 type ++ bytes) m := by
  have huint : Parses (Parser.uint 1 : Reader ℕ) _ _ := parses_uint 1 type
  have hmod : type % 256 ^ 1 = type := Nat.mod_eq_of_lt (by omega)
  rw [hmod] at huint
  have hbytes : ofInt 1 (type : ℤ) = bigEndian 1 type := by
    have htoNat : ((type : ℤ) % 256 ^ 1).toNat = type := by omega
    rw [ofInt, htoNat]
  rw [hbytes]
  exact huint.bind h

/-- The fixed point form of a pressure of 0 or 1 is exact. -/
theorem parses_pressure {pressure : ℚ} (hp : pressure = 0 ∨ pressure = 1) :
    ∃ v, Parses readShort (ofInt 2 (floatToU16FixedPoint pressure)) v ∧
      u16FixedPointToFloat v = pressure := by
  rcases hp with rfl | rfl
  · refine ⟨0, ?_, by norm_num [u16FixedPointToFloat]⟩
    have hzero : floatToU16FixedPoint 0 = 0 := by
      rw [floatToU16FixedPoint, Int.floor_eq_iff]
      norm_num [clamp]
    rw [hzero]
    exact parses_int (by norm_num) (by norm_num)
  · refine ⟨-1, ?_, by norm_num [u16FixedPointToFloat]⟩
    have hone : ofInt 2 (floatToU16FixedPoint 1) = ofInt 2 (-1) := by
      have hfloor : floatToU16FixedPoint 1 = 0xffff := by
        rw [floatToU16FixedPoint, Int.floor_eq_iff]
        norm_num [clamp]
      rw [hfloor]
      decide
    rw [hone]
    exact parses_int (by norm_num) (by norm_num)

/-- **One message**: what an encoder builds is read back exactly, whatever follows it. -/
theorem parses_encode {input : ControlInput} (hrange : input.InRange) (hbyte : input.ActionIsByte) :
    ∃ m, Decodes input m ∧ Parses ControlMessageReader.read (encode input) m := by
  cases input with
  | key action keycode repeatCount metaState =>
    obtain ⟨-, hkey, hrepeat, hmeta⟩ := hrange
    refine ⟨_, rfl, ?_⟩
    rw [encode, buildKeyControlMessage_eq]
    exact parses_read 0 (by decide)
      ((parses_readUnsignedByte hbyte.1 hbyte.2).bind ((parses_readInt hkey).bind
        ((parses_readInt hrepeat).bind ((parses_readInt hmeta).map _))))
  | text text =>
    obtain ⟨chars, rfl⟩ := hrange
    obtain ⟨p, hp, htext⟩ := truncateUTF8_spec injectTextMaxLength chars
    refine ⟨_, ⟨chars, p, rfl, hp, rfl⟩, ?_⟩
    rw [encode, buildTextControlMessage_eq, htext, Utf.encodeUtf8_flatMap]
    exact parses_read 1 (by decide) ((parses_parseString (by decide) hp.fits).map _)
  | touch action pointerId x y screenWidth screenHeight pressure actionButton buttons =>
    obtain ⟨-, hpointer, hx, hy, hwidth, hheight, hpressure, hactionButton, hbuttons⟩ := hrange
    obtain ⟨v, hv, hfloat⟩ := parses_pressure hpressure
    refine ⟨_, rfl, ?_⟩
    rw [encode, buildTouchControlMessage_eq]
    have hposition : Parses parsePosition (ofInt 4 x ++ (ofInt 4 y ++
        (ofInt 2 screenWidth ++ ofInt 2 screenHeight))) ⟨x, y, screenWidth, screenHeight⟩ :=
      (parses_readInt hx).bind ((parses_readInt hy).bind
        ((parses_readUnsignedShort hwidth.1 hwidth.2).bind
          ((parses_readUnsignedShort hheight.1 hheight.2).map _)))
    have hfields : Parses parseInjectTouchEvent _ (.injectTouchEvent action pointerId
        ⟨x, y, screenWidth, screenHeight⟩ (u16FixedPointToFloat v) actionButton buttons) :=
      (parses_readUnsignedByte hbyte.1 hbyte.2).bind ((parses_readLong hpointer).bind
        (hposition.bind (hv.bind ((parses_readInt hactionButton).bind
          ((parses_readInt hbuttons).map _)))))
    rw [hfloat] at hfields
    exact parses_read 2 (by decide) hfields
  | setClipboard text paste =>
    obtain ⟨chars, rfl⟩ := hrange
    obtain ⟨p, hp, htext⟩ := truncateUTF8_spec clipboardTextMaxLength chars
    refine ⟨_, ⟨chars, p, rfl, hp, rfl⟩, ?_⟩
    rw [encode, buildSetClipboardControlMessage_eq, htext, Utf.encodeUtf8_flatMap]
    have hpaste : Parses readByte (ofInt 1 (if paste then 1 else 0)) (if paste then 1 else 0) :=
      parses_int (by cases paste <;> decide) (by cases paste <;> decide)
    have hfields : Parses parseSetClipboard _ (.setClipboard 0 (p.flatMap Utf.utf16)
        (decide ((if paste then (1 : ℤ) else 0) ≠ 0))) :=
      (parses_readLong (v := 0) (by norm_num [IsInt64])).bind (hpaste.bind
        ((parses_parseString (by decide) hp.fits).map _))
    have hflag : decide ((if paste then (1 : ℤ) else 0) ≠ 0) = paste := by cases paste <;> decide
    rw [hflag] at hfields
    exact parses_read 9 (by decide) hfields
  | setDisplayPower on =>
    refine ⟨_, rfl, ?_⟩
    rw [encode, buildSetDisplayPowerControlMessage_eq]
    exact parses_read 10 (by decide) ((parses_readBoolean on).map _)

/-! ### Sequences of messages -/

/-- **The round trip**: repeated reads of what the encoders built for a sequence of calls give
exactly the messages of these calls, and leave nothing. -/
theorem control_roundtrip (inputs : List ControlInput)
    (h : ∀ input ∈ inputs, input.InRange ∧ input.ActionIsByte) :
    ∃ messages, List.Forall₂ Decodes inputs messages ∧
      ControlMessageReader.read.many inputs.length (inputs.flatMap encode) =
        .ok (messages, []) := by
  have hmessages : ∃ messages, List.Forall₂ Decodes inputs messages ∧
      List.Forall₂ (Parses ControlMessageReader.read) (inputs.map encode) messages := by
    induction inputs with
    | nil => exact ⟨[], .nil, .nil⟩
    | cons input inputs ih =>
      obtain ⟨hrange, hbyte⟩ := h input List.mem_cons_self
      obtain ⟨m, hm, hparses⟩ := parses_encode hrange hbyte
      obtain ⟨messages, hms, hps⟩ := ih fun i hi ↦ h i (List.mem_cons_of_mem _ hi)
      exact ⟨m :: messages, .cons hm hms, .cons hparses hps⟩
  obtain ⟨messages, hdecodes, hparses⟩ := hmessages
  refine ⟨messages, hdecodes, ?_⟩
  have hmany := (Parses.many hparses).eq
  rwa [← List.flatMap_def, ← hdecodes.length_eq] at hmany

/-- A tap, a snowman typed and the display turned off. -/
theorem control_roundtrip_tap :
    ∃ messages, ControlMessageReader.read.many 3
      ([.touch 0 (-2) 10 20 1080 2400 1 1 1, .text [0x2603],
        .setDisplayPower false].flatMap encode) =
        .ok (messages, []) := by
  obtain ⟨messages, -, hread⟩ := control_roundtrip
    [.touch 0 (-2) 10 20 1080 2400 1 1 1, .text [0x2603], .setDisplayPower false] (by
      intro input hinput
      simp only [List.mem_cons, List.not_mem_nil, or_false] at hinput
      rcases hinput with rfl | rfl | rfl
      · norm_num [ControlInput.InRange, ControlInput.ActionIsByte, IsInt32, IsInt64]
      · exact ⟨⟨['☃'], by decide⟩, trivial⟩
      · exact ⟨trivial, trivial⟩)
  exact ⟨messages, hread⟩

/-- **An action of more than a byte is cut**: the key message of action 256 is that of action 0. -/
theorem action_truncated :
    ¬∀ inputs : List ControlInput, (∀ input ∈ inputs, input.InRange) →
      ∃ messages, List.Forall₂ Decodes inputs messages ∧
        ControlMessageReader.read.many inputs.length (inputs.flatMap encode) =
          .ok (messages, []) := by
  intro hall
  obtain ⟨messages, hdecodes, hread⟩ := hall [.key 256 0 0 0] (by
    intro input hinput
    obtain rfl := List.mem_singleton.1 hinput
    norm_num [ControlInput.InRange, IsInt32])
  have hbytes : [.key 256 0 0 0].flatMap encode = [encode (.key 0 0 0 0)].flatten := by
    have haction : ofInt 1 256 = ofInt 1 0 := by decide
    simp only [List.flatMap_cons, List.flatMap_nil, List.flatten_cons, List.flatten_nil, encode,
      buildKeyControlMessage_eq, haction]
  -- The same bytes are read as the key message of action 0.
  have hrange : (ControlInput.key 0 0 0 0).InRange := by norm_num [ControlInput.InRange, IsInt32]
  obtain ⟨m, hm, hparses⟩ := parses_encode hrange ⟨by decide, by decide⟩
  have hzero := (Parses.many (.cons hparses .nil)).eq
  rw [← hbytes] at hzero
  have hok := hread.symm.trans hzero
  simp only [Except.ok.injEq, Prod.mk.injEq, and_true] at hok
  subst hok
  obtain ⟨hkey, -⟩ := List.forall₂_cons.1 hdecodes
  rw [Decodes] at hkey hm
  rw [hkey] at hm
  cases hm

end AllRelay.Encoders
