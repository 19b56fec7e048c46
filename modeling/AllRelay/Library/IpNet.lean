import AllRelay.Library.Wire
import Mathlib.Data.List.Nodup
import Mathlib.Tactic.NormNum

/-!
# Addresses and networks

Go's `net.IP` and `net.IPMask` as byte strings, and an IPv4 network as what its mask makes of it: a
block of addresses, of which the first (`networkAddress`) and the last (`broadcastAddress`) are no
hosts. Masking an address gives the first one of its block (`value_mask`).
-/

namespace IpNet

open Wire

/-- `net.IP`. -/
abbrev IP :=
  List UInt8

/-- `net.IPMask`. -/
abbrev IPMask :=
  List UInt8

/-! ### Masks -/

/-- `net.CIDRMask`, in `len` bytes. -/
def CIDRMask : ℕ → ℕ → IPMask
  | _, 0 => []
  | ones, len + 1 =>
    if 8 ≤ ones then 0xFF :: CIDRMask (ones - 8) len
    else ~~~(0xFF >>> UInt8.ofNat ones) :: CIDRMask 0 len

/-- The ones at the front of a byte, and what is left of it. -/
def leadingOnes : ℕ → UInt8 → ℕ × UInt8
  | 0, v => (0, v)
  | fuel + 1, v =>
    if v &&& 0x80 ≠ 0 then
      let (n, v) := leadingOnes fuel (v <<< 1)
      (n + 1, v)
    else (0, v)

/-- `simpleMaskLength`, nothing for a mask that is no prefix. -/
def simpleMaskLength : IPMask → Option ℕ
  | [] => some 0
  | v :: mask =>
    if v = 0xFF then (simpleMaskLength mask).map (8 + ·)
    else
      let (n, v) := leadingOnes 8 v
      if v ≠ 0 ∨ mask.any (· ≠ 0) then none else some n

/-- `IPMask.Size`. -/
def IPMask.size (mask : IPMask) : ℕ × ℕ :=
  match simpleMaskLength mask with
  | some ones => (ones, mask.length * 8)
  | none => (0, 0)

/-! ### Addresses -/

/-- `v4InV6Prefix`. -/
def v4InV6Prefix : List UInt8 :=
  [0, 0, 0, 0, 0, 0, 0, 0, 0, 0, 0xFF, 0xFF]

/-- `IP.To4`. -/
def IP.to4 (ip : IP) : Option IP :=
  if ip.length = 4 then some ip
  else if ip.length = 16 ∧ ip.take 12 = v4InV6Prefix then some (ip.drop 12)
  else none

/-- `IP.Mask`, nothing when the lengths do not agree. -/
def IP.mask (ip : IP) (mask : IPMask) : Option IP :=
  let mask :=
    if mask.length = 16 ∧ ip.length = 4 ∧ (mask.take 12).all (· = 0xFF) then mask.drop 12 else mask
  let ip :=
    if mask.length = 4 ∧ ip.length = 16 ∧ ip.take 12 = v4InV6Prefix then ip.drop 12 else ip
  if ip.length = mask.length then some (List.zipWith (· &&& ·) ip mask) else none

/-- `IP.Equal`: the two forms of an IPv4 address are equal. -/
def IP.equal (ip x : IP) : Bool :=
  if ip.length = x.length then ip = x
  else if ip.length = 4 ∧ x.length = 16 then x.take 12 = v4InV6Prefix ∧ ip = x.drop 12
  else if ip.length = 16 ∧ x.length = 4 then ip.take 12 = v4InV6Prefix ∧ ip.drop 12 = x
  else false

theorem IP.length_to4 {ip a : IP} (h : ip.to4 = some a) : a.length = 4 := by
  unfold IP.to4 at h
  split at h
  · cases h
    assumption
  · split at h
    · cases h
      rename_i hv6
      rw [List.length_drop, hv6.1]
    · cases h

/-- An IPv4 address is equal to the addresses with the same short form. -/
theorem IP.equal_iff {ip x a : IP} (hip : ip.length = 4) (hx : x.to4 = some a) :
    ip.equal x = true ↔ ip = a := by
  unfold IP.to4 at hx
  split at hx
  · cases hx
    simp [IP.equal, *]
  · split at hx
    · cases hx
      simp [IP.equal, *]
    · cases hx

/-! ### Networks -/

/-- The number of addresses of an IPv4 network. -/
def blockSize (ones : ℕ) : ℕ :=
  2 ^ (32 - ones)

/-- Two addresses are in the same network. -/
def SameNetwork (ones a b : ℕ) : Prop :=
  a / blockSize ones = b / blockSize ones

/-- The first address of the network of an address. -/
def networkAddress (ones a : ℕ) : ℕ :=
  a / blockSize ones * blockSize ones

/-- The last address of the network of an address. -/
def broadcastAddress (ones a : ℕ) : ℕ :=
  networkAddress ones a + (blockSize ones - 1)

/-- `b` is a host address of the network of `a`. -/
def IsHost (ones a b : ℕ) : Prop :=
  SameNetwork ones b a ∧ b ≠ networkAddress ones a ∧ b ≠ broadcastAddress ones a

theorem blockSize_pos (ones : ℕ) : 0 < blockSize ones :=
  Nat.two_pow_pos _

/-- A network is an interval. -/
theorem sameNetwork_iff {ones a b : ℕ} :
    SameNetwork ones b a ↔
      networkAddress ones a ≤ b ∧ b < networkAddress ones a + blockSize ones := by
  have hpos := blockSize_pos ones
  rw [SameNetwork, networkAddress, Nat.div_eq_iff hpos]
  omega

theorem networkAddress_add_le {ones a : ℕ} (hones : ones ≤ 32) (ha : a < 2 ^ 32) :
    networkAddress ones a + blockSize ones ≤ 2 ^ 32 := by
  have hsplit : 2 ^ 32 = 2 ^ ones * blockSize ones := by
    rw [blockSize, ← pow_add, Nat.add_sub_cancel' hones]
  have hlt : a / blockSize ones < 2 ^ ones :=
    Nat.div_lt_of_lt_mul (by rwa [Nat.mul_comm, ← hsplit])
  have hle := Nat.mul_le_mul_right (blockSize ones) hlt
  rwa [Nat.succ_mul, ← hsplit] at hle

/-- The addresses of a network behind the first. -/
def behindFirst (ones a : ℕ) : List IP :=
  (List.range' 1 (blockSize ones - 1)).map fun i ↦ bigEndian 4 (networkAddress ones a + i)

theorem mem_behindFirst {ones a : ℕ} (hones : ones ≤ 32) (ha : a < 2 ^ 32) {ip : IP} :
    ip ∈ behindFirst ones a ↔
      ip.length = 4 ∧ SameNetwork ones (value ip) a ∧ value ip ≠ networkAddress ones a := by
  have hpos := blockSize_pos ones
  have htop := networkAddress_add_le hones ha
  simp only [behindFirst, List.mem_map, List.mem_range'_1, sameNetwork_iff]
  constructor
  · rintro ⟨i, hi, rfl⟩
    rw [length_bigEndian, value_bigEndian, Nat.mod_eq_of_lt (show _ < 256 ^ 4 by omega)]
    omega
  · rintro ⟨hlen, hnet, hne⟩
    refine ⟨value ip - networkAddress ones a, by omega, ?_⟩
    rw [Nat.add_sub_cancel' hnet.1, ← hlen, bigEndian_value]

theorem nodup_behindFirst {ones a : ℕ} (hones : ones ≤ 32) (ha : a < 2 ^ 32) :
    (behindFirst ones a).Nodup := by
  have htop := networkAddress_add_le hones ha
  refine List.Nodup.map_on ?_ List.nodup_range'
  intro i hi j hj heq
  rw [List.mem_range'_1] at hi hj
  have hvalue := congrArg value heq
  rw [value_bigEndian, value_bigEndian, Nat.mod_eq_of_lt (show _ < 256 ^ 4 by omega),
    Nat.mod_eq_of_lt (show _ < 256 ^ 4 by omega)] at hvalue
  omega

/-! ### Masking -/

/-- The bits that the mask keeps of one byte. -/
theorem and_byteMask : ∀ ones : Fin 8, ∀ b : Fin 256,
    (UInt8.ofNat b &&& ~~~(0xFF >>> UInt8.ofNat ones)).toNat =
      b.val / 2 ^ (8 - ones.val) * 2 ^ (8 - ones.val) := by
  decide +kernel

@[simp]
theorem length_CIDRMask (ones len : ℕ) : (CIDRMask ones len).length = len := by
  induction len generalizing ones with
  | zero => rfl
  | succ len ih =>
    rw [CIDRMask]
    split <;> rw [List.length_cons, ih]

theorem size_CIDRMask : ∀ ones : Fin 33, IPMask.size (CIDRMask ones 4) = (ones.val, 32) := by
  decide +kernel

theorem length_zipWith_CIDRMask (ip : IP) (ones : ℕ) :
    (List.zipWith (· &&& ·) ip (CIDRMask ones ip.length)).length = ip.length := by
  rw [List.length_zipWith, length_CIDRMask, Nat.min_self]

/-- **Masking** clears the low bits of an address. -/
theorem value_mask (ip : IP) {ones : ℕ} (hones : ones ≤ 8 * ip.length) :
    value (List.zipWith (· &&& ·) ip (CIDRMask ones ip.length)) =
      value ip / 2 ^ (8 * ip.length - ones) * 2 ^ (8 * ip.length - ones) := by
  induction ip generalizing ones with
  | nil => simp [value]
  | cons b ip ih =>
    have h256 : 256 ^ ip.length = 2 ^ (8 * ip.length) := by
      rw [pow_mul]
      norm_num
    rw [List.length_cons] at hones ⊢
    rw [CIDRMask]
    split
    case isTrue hle =>
      -- the mask ends in the bytes behind this one, which is kept
      obtain ⟨d, hd⟩ : ∃ d, 8 * ip.length = d + (8 * ip.length - (ones - 8)) :=
        ⟨_, (Nat.sub_add_cancel (Nat.sub_le _ _)).symm⟩
      have hk : 8 * (ip.length + 1) - ones = 8 * ip.length - (ones - 8) := by omega
      have hbyte : b &&& 0xFF = b := UInt8.and_neg_one
      rw [List.zipWith_cons_cons, hbyte, value_cons, length_zipWith_CIDRMask, ih (by omega),
        value_cons, hk, h256]
      generalize 8 * ip.length - (ones - 8) = k at hd ⊢
      rw [hd, pow_add, ← Nat.mul_assoc, Nat.mul_comm _ (2 ^ k),
        Nat.mul_add_div (Nat.two_pow_pos k)]
      ring
    case isFalse hgt =>
      -- the mask ends in this byte, and nothing is kept behind it
      have hk : 8 * (ip.length + 1) - ones = 8 * ip.length + (8 - ones) := by omega
      have hbyte := and_byteMask ⟨ones, by omega⟩ ⟨b.toNat, b.toNat_lt⟩
      rw [UInt8.ofNat_toNat] at hbyte
      have hzero : value ip / 2 ^ (8 * ip.length) = 0 :=
        Nat.div_eq_of_lt (h256 ▸ value_lt ip)
      rw [List.zipWith_cons_cons, value_cons, length_zipWith_CIDRMask, ih (Nat.zero_le _),
        Nat.sub_zero, hzero, hbyte, value_cons, hk, h256, pow_add, ← Nat.div_div_eq_div_mul,
        Nat.mul_comm b.toNat, Nat.mul_add_div (Nat.two_pow_pos _), hzero, Nat.add_zero,
        Nat.zero_mul, Nat.add_zero, Nat.mul_assoc, Nat.mul_comm (2 ^ (8 - ones))]

/-- The IPv4 network of an address, in either of its forms. -/
theorem IP.mask_CIDRMask {ip a : IP} (h : ip.to4 = some a) {ones : ℕ} (hones : ones ≤ 32) :
    ∃ base, ip.mask (CIDRMask ones 4) = some base ∧ base.length = 4 ∧
      value base = networkAddress ones (value a) := by
  have hlen := IP.length_to4 h
  refine ⟨List.zipWith (· &&& ·) a (CIDRMask ones 4), ?_, ?_, ?_⟩
  · unfold IP.to4 at h
    split at h
    · cases h
      simp [IP.mask, *]
    · split at h
      · cases h
        simp [IP.mask, *]
      · cases h
  · rw [← hlen, length_zipWith_CIDRMask]
  · have hvalue := @value_mask a ones (by omega)
    rw [hlen] at hvalue
    exact hvalue

end IpNet
