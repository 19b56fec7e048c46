import AllRelay.Library.Utf
import AllRelay.Library.Wire
import Mathlib.Algebra.Field.Rat
import Mathlib.Data.Rat.Floor

/-!
# The browser's control encoders

The encoders of `app.js` fill a zeroed `Uint8Array` through a `DataView`, field by field at a fixed
offset. `setBytes` is such a write, and the layout lemmas (`buildKeyControlMessage_eq` and the like)
say which sequence of fields comes out.

A JavaScript string is its list of UTF-16 code units. `DataView.setInt32` and its relatives take any
integer and keep its low bits, so an argument is an integer here, and a pressure a rational number.
-/

namespace AllRelay.Encoders

open Wire

/-- The arguments of one call of an encoder. -/
inductive ControlInput where
  /-- `buildKeyControlMessage`. -/
  | key (action keycode repeatCount metaState : ℤ)
  /-- `buildTextControlMessage`. -/
  | text (text : List UInt16)
  /-- `buildTouchControlMessage`. -/
  | touch (action pointerId x y screenWidth screenHeight : ℤ) (pressure : ℚ)
    (actionButton buttons : ℤ)
  /-- `buildSetClipboardControlMessage`. -/
  | setClipboard (text : List UInt16) (paste : Bool)
  /-- `buildSetDisplayPowerControlMessage`. -/
  | setDisplayPower (on : Bool)
deriving DecidableEq

/-- `SCRCPY_INJECT_TEXT_MAX_LENGTH`. -/
def injectTextMaxLength : ℕ := 300

/-- `SCRCPY_CLIPBOARD_TEXT_MAX_LENGTH`. -/
def clipboardTextMaxLength : ℕ := 2 ^ 18 - 14

/-! ### Buffers -/

/-- `new Uint8Array(length)`. -/
def newUint8Array (length : ℕ) : List UInt8 :=
  List.replicate length 0

/-- A write of `bytes` at `offset`. -/
def setBytes (data : List UInt8) (offset : ℕ) (bytes : List UInt8) : List UInt8 :=
  data.take offset ++ bytes ++ data.drop (offset + bytes.length)

/-- `DataView.setUint8`. -/
def setUint8 (data : List UInt8) (offset : ℕ) (v : ℤ) : List UInt8 :=
  setBytes data offset (ofInt 1 v)

/-- `DataView.setUint16`, big-endian. -/
def setUint16 (data : List UInt8) (offset : ℕ) (v : ℤ) : List UInt8 :=
  setBytes data offset (ofInt 2 v)

/-- `DataView.setUint32`, big-endian. -/
def setUint32 (data : List UInt8) (offset : ℕ) (v : ℤ) : List UInt8 :=
  setBytes data offset (ofInt 4 v)

/-- `DataView.setInt32`, big-endian. -/
def setInt32 (data : List UInt8) (offset : ℕ) (v : ℤ) : List UInt8 :=
  setBytes data offset (ofInt 4 v)

/-- `setUint64BE`: the two halves of the number, each taken modulo `2 ^ 32`. -/
def setUint64BE (data : List UInt8) (offset : ℕ) (v : ℤ) : List UInt8 :=
  setUint32 (setUint32 data offset (v / 2 ^ 32 % 2 ^ 32)) (offset + 4) (v % 2 ^ 32)

/-! ### Values -/

/-- `clamp`. -/
def clamp (v lo hi : ℚ) : ℚ :=
  min hi (max lo v)

/-- `floatToU16FixedPoint`; `Math.round` rounds halves up. -/
def floatToU16FixedPoint (v : ℚ) : ℤ :=
  ⌊clamp v 0 1 * 0xffff + 1 / 2⌋

/-- The loop of `truncateUTF8` over the code points that are left. -/
def truncateFrom (maxBytes : ℕ) (out : List UInt16) : List (List UInt16) → List UInt16
  | [] => out
  | ch :: rest =>
    if maxBytes < (Utf.encodeUtf8 (out ++ ch)).length then out
    else truncateFrom maxBytes (out ++ ch) rest

/-- `truncateUTF8`. -/
def truncateUTF8 (text : List UInt16) (maxBytes : ℕ) : List UInt16 :=
  truncateFrom maxBytes [] (Utf.points text)

/-! ### The encoders -/

/-- `buildKeyControlMessage`. -/
def buildKeyControlMessage (action keycode repeatCount metaState : ℤ) : List UInt8 :=
  let data := newUint8Array 14
  let data := setUint8 data 0 0
  let data := setUint8 data 1 action
  let data := setInt32 data 2 keycode
  let data := setInt32 data 6 repeatCount
  setInt32 data 10 metaState

/-- `buildTextControlMessage`. -/
def buildTextControlMessage (text : List UInt16) : List UInt8 :=
  let encoded := Utf.encodeUtf8 (truncateUTF8 text injectTextMaxLength)
  let data := newUint8Array (1 + 4 + encoded.length)
  let data := setUint8 data 0 1
  let data := setUint32 data 1 encoded.length
  setBytes data 5 encoded

/-- `buildSetClipboardControlMessage`. -/
def buildSetClipboardControlMessage (text : List UInt16) (paste : Bool) : List UInt8 :=
  let encoded := Utf.encodeUtf8 (truncateUTF8 text clipboardTextMaxLength)
  let data := newUint8Array (1 + 8 + 1 + 4 + encoded.length)
  let data := setUint8 data 0 9
  let data := setUint64BE data 1 0
  let data := setUint8 data 9 (if paste then 1 else 0)
  let data := setUint32 data 10 encoded.length
  setBytes data 14 encoded

/-- `buildTouchControlMessage`. -/
def buildTouchControlMessage (action pointerId x y screenWidth screenHeight : ℤ) (pressure : ℚ)
    (actionButton buttons : ℤ) : List UInt8 :=
  let data := newUint8Array 32
  let data := setUint8 data 0 2
  let data := setUint8 data 1 action
  let data := setUint64BE data 2 pointerId
  let data := setInt32 data 10 x
  let data := setInt32 data 14 y
  let data := setUint16 data 18 screenWidth
  let data := setUint16 data 20 screenHeight
  let data := setUint16 data 22 (floatToU16FixedPoint pressure)
  let data := setInt32 data 24 actionButton
  setInt32 data 28 buttons

/-- `buildSetDisplayPowerControlMessage`. -/
def buildSetDisplayPowerControlMessage (on : Bool) : List UInt8 :=
  let data := newUint8Array 2
  let data := setUint8 data 0 10
  setUint8 data 1 (if on then 1 else 0)

/-- The bytes of a call. -/
def encode : ControlInput → List UInt8
  | .key action keycode repeatCount metaState =>
    buildKeyControlMessage action keycode repeatCount metaState
  | .text text => buildTextControlMessage text
  | .touch action pointerId x y screenWidth screenHeight pressure actionButton buttons =>
    buildTouchControlMessage action pointerId x y screenWidth screenHeight pressure actionButton
      buttons
  | .setClipboard text paste => buildSetClipboardControlMessage text paste
  | .setDisplayPower on => buildSetDisplayPowerControlMessage on

/-! ### Layouts -/

/-- A write right behind what was written before. -/
theorem setBytes_append {done bytes : List UInt8} {offset n : ℕ} (hoffset : done.length = offset) :
    setBytes (done ++ newUint8Array n) offset bytes =
      (done ++ bytes) ++ newUint8Array (n - bytes.length) := by
  subst hoffset
  rw [setBytes, List.take_left, List.drop_append, newUint8Array, newUint8Array,
    List.drop_eq_nil_of_le (Nat.le_add_right _ _), List.drop_replicate, Nat.add_sub_cancel_left,
    List.nil_append]

/-- The first write into a new buffer. -/
theorem setBytes_new {bytes : List UInt8} {n : ℕ} :
    setBytes (newUint8Array n) 0 bytes = bytes ++ newUint8Array (n - bytes.length) :=
  show setBytes ([] ++ newUint8Array n) 0 bytes = ([] ++ bytes) ++ _ from setBytes_append rfl

/-- A buffer that is filled to its end. -/
theorem append_newUint8Array_of_eq_zero (done : List UInt8) {n : ℕ} (hn : n = 0) :
    done ++ newUint8Array n = done := by
  subst hn
  exact List.append_nil done

/-- `setUint64BE` writes the eight bytes of the number. -/
theorem ofInt_halves (v : ℤ) :
    ofInt 4 (v / 2 ^ 32 % 2 ^ 32) ++ ofInt 4 (v % 2 ^ 32) = ofInt 8 v := by
  have hhi : (v / 2 ^ 32 % 2 ^ 32 % 256 ^ 4).toNat = (v % 256 ^ 8).toNat / 256 ^ 4 := by
    norm_num
    omega
  have hlo : bigEndian 4 (v % 2 ^ 32 % 256 ^ 4).toNat = bigEndian 4 (v % 256 ^ 8).toNat := by
    have hmod : (v % 2 ^ 32 % 256 ^ 4).toNat = (v % 256 ^ 8).toNat % 256 ^ 4 := by
      norm_num
      omega
    rw [hmod]
    simp only [bigEndian, List.cons.injEq, and_true]
    norm_num
    refine ⟨?_, ?_, ?_, ?_⟩ <;> apply UInt8.toNat_inj.1 <;>
      simp only [UInt8.toNat_ofNat'] <;> omega
  rw [ofInt, ofInt, ofInt, hhi, hlo]
  exact (bigEndian_add 4 4 _).symm

theorem buildKeyControlMessage_eq (action keycode repeatCount metaState : ℤ) :
    buildKeyControlMessage action keycode repeatCount metaState =
      ofInt 1 0 ++ (ofInt 1 action ++ (ofInt 4 keycode ++ (ofInt 4 repeatCount ++
        ofInt 4 metaState))) := by
  simp only [buildKeyControlMessage, setUint8, setInt32]
  rw [setBytes_new]
  iterate 4 rw [setBytes_append (by simp)]
  rw [append_newUint8Array_of_eq_zero _ (by simp only [length_ofInt])]
  simp only [List.append_assoc]

theorem buildTextControlMessage_eq (text : List UInt16) :
    buildTextControlMessage text =
      ofInt 1 1 ++ (ofInt 4 (Utf.encodeUtf8 (truncateUTF8 text injectTextMaxLength)).length ++
        Utf.encodeUtf8 (truncateUTF8 text injectTextMaxLength)) := by
  simp only [buildTextControlMessage, setUint8, setUint32]
  rw [setBytes_new]
  iterate 2 rw [setBytes_append (by simp)]
  rw [append_newUint8Array_of_eq_zero _ (by simp only [length_ofInt]; omega)]
  simp only [List.append_assoc]

theorem buildSetClipboardControlMessage_eq (text : List UInt16) (paste : Bool) :
    buildSetClipboardControlMessage text paste =
      ofInt 1 9 ++ (ofInt 8 0 ++ (ofInt 1 (if paste then 1 else 0) ++
        (ofInt 4 (Utf.encodeUtf8 (truncateUTF8 text clipboardTextMaxLength)).length ++
          Utf.encodeUtf8 (truncateUTF8 text clipboardTextMaxLength)))) := by
  simp only [buildSetClipboardControlMessage, setUint8, setUint32, setUint64BE]
  rw [setBytes_new]
  iterate 5 rw [setBytes_append (by simp)]
  rw [append_newUint8Array_of_eq_zero _ (by simp only [length_ofInt]; omega), ← ofInt_halves 0]
  simp only [List.append_assoc]

theorem buildTouchControlMessage_eq (action pointerId x y screenWidth screenHeight : ℤ)
    (pressure : ℚ) (actionButton buttons : ℤ) :
    buildTouchControlMessage action pointerId x y screenWidth screenHeight pressure actionButton
        buttons =
      ofInt 1 2 ++ (ofInt 1 action ++ (ofInt 8 pointerId ++ ((ofInt 4 x ++ (ofInt 4 y ++
        (ofInt 2 screenWidth ++ ofInt 2 screenHeight))) ++
        (ofInt 2 (floatToU16FixedPoint pressure) ++ (ofInt 4 actionButton ++
          ofInt 4 buttons))))) := by
  simp only [buildTouchControlMessage, setUint8, setUint16, setUint32, setInt32, setUint64BE]
  rw [setBytes_new]
  iterate 10 rw [setBytes_append (by simp)]
  rw [append_newUint8Array_of_eq_zero _ (by simp only [length_ofInt]), ← ofInt_halves pointerId]
  simp only [List.append_assoc]

theorem buildSetDisplayPowerControlMessage_eq (on : Bool) :
    buildSetDisplayPowerControlMessage on = ofInt 1 10 ++ ofInt 1 (if on then 1 else 0) := by
  simp only [buildSetDisplayPowerControlMessage, setUint8]
  rw [setBytes_new]
  rw [setBytes_append (by simp)]
  rw [append_newUint8Array_of_eq_zero _ (by simp only [length_ofInt])]

end AllRelay.Encoders
