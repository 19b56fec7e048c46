import AllRelay.Library.IpNet
import Mathlib.Data.List.Basic

/-!
# The addresses of a scan

`Scan` sends the query to every address of the local network but its own. The addresses are counted
from the network address, in a loop that makes one step more than there are hosts: the broadcast
address is probed too (`mem_scanTargets`). So the hosts are probed and nothing else exactly when the
loop happens to skip it, because it is the local address.
-/

namespace AllRelay.Discovery

open IpNet Wire

/-- `net.IPNet`. -/
structure IPNet where
  ip : IP
  /-- The mask, none for a nil slice. -/
  mask : Option IPMask
deriving DecidableEq, Repr

/-- `incIP`, nothing for an index out of range. -/
def incIP : IP → UInt32 → Option IP
  | b₀ :: b₁ :: b₂ :: b₃ :: _, n =>
    let b := b₀.toUInt32 <<< 24 ||| b₁.toUInt32 <<< 16 ||| b₂.toUInt32 <<< 8 ||| b₃.toUInt32
    let b := b + n
    some [(b >>> 24).toUInt8, (b >>> 16).toUInt8, (b >>> 8).toUInt8, b.toUInt8]
  | _, _ => none

/-- The mask of a scan and its size. -/
def scanMask (subnet : IPNet) : IPMask × ℕ × ℕ :=
  let mask := subnet.mask.getD (CIDRMask 24 4)
  let (ones, bits) := mask.size
  let (mask, ones) := if bits = 0 then (CIDRMask 24 4, 24) else (mask, ones)
  -- networks broader than /16 are clamped
  if ones < 16 then (CIDRMask 16 4, 16, bits) else (mask, ones, bits)

/-- `hostCount`; a negative shift count panics. -/
def hostCount (ones bits : ℕ) : Option ℤ :=
  if ones ≤ bits then some (min (Int.bmod (2 ^ (bits - ones) - 2) (2 ^ 64)) 65534) else none

/-- The targets of the goroutines that `n` rounds of the loop start, from the `i`-th on. -/
def probes (baseIP localIP : IP) : ℕ → ℕ → Option (List IP)
  | _, 0 => some []
  | i, n + 1 => do
    let ip ← incIP baseIP (UInt32.ofNat i)
    let rest ← probes baseIP localIP (i + 1) n
    if ip.equal localIP then some rest else some (ip :: rest)

/-- The targets of the goroutines that `Scan` starts, nothing when it panics. -/
def scanTargets (subnet : IPNet) (localIP : IP) : Option (List IP) := do
  let (mask, ones, bits) := scanMask subnet
  let count ← hostCount ones bits
  probes ((subnet.ip.mask mask).getD []) localIP 1 (count + 1).toNat

/-! ### The addresses of the loop -/

theorem toNat_or {x y : UInt32} {k : ℕ} (hx : 2 ^ k ∣ x.toNat) (hy : y.toNat < 2 ^ k) :
    (x ||| y).toNat = x.toNat + y.toNat := by
  obtain ⟨a, ha⟩ := hx
  rw [UInt32.toNat_or, ha, Nat.mul_comm, ← Nat.shiftLeft_eq, Nat.shiftLeft_add_eq_or_of_lt hy]

theorem toNat_shiftLeft (b : UInt8) {k : UInt32} (hk : k.toNat ≤ 24) :
    (b.toUInt32 <<< k).toNat = b.toNat * 2 ^ k.toNat := by
  have hb : b.toNat < 2 ^ 8 := b.toNat_lt
  have hmod : k.toNat % 32 = k.toNat := Nat.mod_eq_of_lt (by omega)
  have hlt : b.toNat * 2 ^ k.toNat < 2 ^ 32 :=
    calc b.toNat * 2 ^ k.toNat < 2 ^ 8 * 2 ^ k.toNat :=
          Nat.mul_lt_mul_of_pos_right hb (Nat.two_pow_pos _)
      _ = 2 ^ (8 + k.toNat) := (pow_add 2 8 k.toNat).symm
      _ ≤ 2 ^ 32 := Nat.pow_le_pow_right (by decide) (by omega)
  rw [UInt32.toNat_shiftLeft, UInt8.toNat_toUInt32, hmod, Nat.shiftLeft_eq, Nat.mod_eq_of_lt hlt]

/-- Four bytes of an address as one word. -/
theorem toNat_word (b₀ b₁ b₂ b₃ : UInt8) :
    (b₀.toUInt32 <<< 24 ||| b₁.toUInt32 <<< 16 ||| b₂.toUInt32 <<< 8 ||| b₃.toUInt32).toNat =
      value [b₀, b₁, b₂, b₃] := by
  have h₀ : (b₀.toUInt32 <<< 24).toNat = b₀.toNat * 2 ^ 24 := toNat_shiftLeft b₀ (by decide)
  have h₁ : (b₁.toUInt32 <<< 16).toNat = b₁.toNat * 2 ^ 16 := toNat_shiftLeft b₁ (by decide)
  have h₂ : (b₂.toUInt32 <<< 8).toNat = b₂.toNat * 2 ^ 8 := toNat_shiftLeft b₂ (by decide)
  have h₃ : b₃.toUInt32.toNat = b₃.toNat := UInt8.toNat_toUInt32 b₃
  have hb₁ := b₁.toNat_lt
  have hb₂ := b₂.toNat_lt
  have hb₃ := b₃.toNat_lt
  -- the bytes do not overlap, so that each `|` is a sum
  have h₀₁ := @toNat_or (b₀.toUInt32 <<< 24) (b₁.toUInt32 <<< 16) 24
    (h₀ ▸ Nat.dvd_mul_left _ _) (by omega)
  have h₀₂ := @toNat_or (b₀.toUInt32 <<< 24 ||| b₁.toUInt32 <<< 16) (b₂.toUInt32 <<< 8) 16
    (by omega) (by omega)
  have h₀₃ := @toNat_or (b₀.toUInt32 <<< 24 ||| b₁.toUInt32 <<< 16 ||| b₂.toUInt32 <<< 8)
    b₃.toUInt32 8 (by omega) (by omega)
  rw [h₀₃, h₀₂, h₀₁, h₀, h₁, h₂, h₃, value]
  simp only [List.foldl_cons, List.foldl_nil]
  omega

/-- A byte of a word. -/
theorem toUInt8_shiftRight (w : UInt32) {k : UInt32} (hk : k.toNat < 32) :
    (w >>> k).toUInt8 = UInt8.ofNat (w.toNat / 2 ^ k.toNat) :=
  UInt8.toNat_inj.mp (by
    rw [UInt32.toNat_toUInt8, UInt32.toNat_shiftRight, Nat.mod_eq_of_lt hk,
      Nat.shiftRight_eq_div_pow, UInt8.toNat_ofNat'])

/-- The bytes of a word. -/
theorem bytes_word (w : UInt32) :
    [(w >>> 24).toUInt8, (w >>> 16).toUInt8, (w >>> 8).toUInt8, w.toUInt8] =
      bigEndian 4 w.toNat := by
  have hlast : w.toUInt8 = UInt8.ofNat (w.toNat / 256 ^ 0) :=
    UInt8.toNat_inj.mp (by simp)
  rw [toUInt8_shiftRight w (by decide), toUInt8_shiftRight w (by decide),
    toUInt8_shiftRight w (by decide), hlast]
  rfl

/-- **`incIP`** adds to the number that an address denotes. -/
theorem incIP_eq {base : IP} (hlen : base.length = 4) (n : ℕ) :
    incIP base (UInt32.ofNat n) = some (bigEndian 4 (value base + n)) := by
  obtain ⟨b₀, b₁, b₂, b₃, rfl⟩ := List.length_eq_four.mp hlen
  rw [incIP, bytes_word, UInt32.toNat_add, toNat_word, UInt32.toNat_ofNat', Nat.add_mod_mod]
  exact congrArg some (bigEndian_mod 4 _)

variable {base localIP ip addr own : IP} {ones i n : ℕ}

/-- The loop probes the addresses that it counts, except the local one. -/
theorem probes_eq (hlen : base.length = 4) (hown : localIP.to4 = some own) :
    probes base localIP i n =
      some (((List.range' i n).map fun i ↦ bigEndian 4 (value base + i)).filter (· ≠ own)) := by
  induction n generalizing i with
  | zero => rfl
  | succ n ih =>
    rw [probes, incIP_eq hlen, ih]
    have hskip := @IP.equal_iff (bigEndian 4 (value base + i)) _ _ (length_bigEndian _ _) hown
    by_cases heq : bigEndian 4 (value base + i) = own
    · have hlocal : IP.equal own localIP = true := heq ▸ hskip.mpr heq
      simp [List.range'_succ, hlocal, heq]
    · simp [List.range'_succ, mt hskip.mp heq, heq]

theorem hostCount_eq : ∀ ones : Fin 31, 16 ≤ ones.val →
    hostCount ones 32 = some (blockSize ones - 2 : ℤ) := by
  decide +kernel

theorem four_le_blockSize (h : ones ≤ 30) : 4 ≤ blockSize ones :=
  Nat.pow_le_pow_right Nat.zero_lt_two (show 2 ≤ 32 - ones by omega)

/-- A network mask of at most 30 bits, as the scan clamps it. -/
theorem scanMask_CIDRMask {subnet : IPNet} (hmask : subnet.mask = some (CIDRMask ones 4))
    (hones : ones ≤ 30) : scanMask subnet = (CIDRMask (max ones 16) 4, max ones 16, 32) := by
  have hsize : IPMask.size (CIDRMask ones 4) = (ones, 32) := size_CIDRMask ⟨ones, by omega⟩
  rw [scanMask, hmask, Option.getD_some, hsize]
  by_cases hlt : ones < 16
  · simp [hlt, Nat.max_eq_right (Nat.le_of_lt hlt)]
  · simp [hlt, Nat.max_eq_left (Nat.not_lt.mp hlt)]

/-- **The targets of a scan**: the addresses behind the first of the network, up to its last. -/
theorem scanTargets_eq {subnet : IPNet} (hmask : subnet.mask = some (CIDRMask ones 4))
    (hones : ones ≤ 30) (haddr : subnet.ip.to4 = some addr) (hown : localIP.to4 = some own) :
    scanTargets subnet localIP =
      some ((behindFirst (max ones 16) (value addr)).filter (· ≠ own)) := by
  have hclamp : max ones 16 ≤ 30 := by omega
  obtain ⟨base, hbase, hlen, hvalue⟩ := IP.mask_CIDRMask haddr (Nat.le_trans hclamp (by decide))
  have hfour := four_le_blockSize hclamp
  have hcount : ((blockSize (max ones 16) - 2 : ℤ) + 1).toNat = blockSize (max ones 16) - 1 := by
    omega
  rw [scanTargets, scanMask_CIDRMask hmask hones]
  simp only [Option.bind_eq_bind]
  rw [hostCount_eq ⟨max ones 16, by omega⟩ (Nat.le_max_right _ _), hbase, Option.getD_some,
    Option.bind_some, hcount, probes_eq hlen hown, hvalue, behindFirst]

/-! ### The hosts -/

/-- What a scan of the network of an address is for: one goroutine for each host address other than
the local one. -/
structure ProbesHosts (ones : ℕ) (addr own : IP) (targets : List IP) : Prop where
  nodup : targets.Nodup
  mem_iff (ip : IP) : ip ∈ targets ↔
    ip.length = 4 ∧ IsHost ones (value addr) (value ip) ∧ ip ≠ own
  /-- The first and the last address are not probed. -/
  not_edge : ∀ ip ∈ targets, value ip ≠ networkAddress ones (value addr) ∧
    value ip ≠ broadcastAddress ones (value addr)

/-- The addresses behind the first are the hosts and the broadcast address. -/
theorem probesHosts_iff (hones : ones ≤ 30) (haddr : addr.length = 4) (hown : own.length = 4) :
    ProbesHosts ones addr own ((behindFirst ones (value addr)).filter (· ≠ own)) ↔
      value own = broadcastAddress ones (value addr) := by
  have hvalue : value addr < 2 ^ 32 := (haddr ▸ value_lt addr :)
  have hmem (ip : IP) : ip ∈ (behindFirst ones (value addr)).filter (· ≠ own) ↔
      (ip.length = 4 ∧ SameNetwork ones (value ip) (value addr) ∧
        value ip ≠ networkAddress ones (value addr)) ∧ ip ≠ own := by
    rw [List.mem_filter, mem_behindFirst (by omega) hvalue, decide_eq_true_iff]
  have hfour := four_le_blockSize hones
  have htop := networkAddress_add_le (Nat.le_trans hones (by decide)) hvalue
  constructor
  · intro h
    by_contra hne
    -- the last address is counted, and it is not the local one
    obtain ⟨last, hlen, hlast⟩ : ∃ last : IP, last.length = 4 ∧
        value last = broadcastAddress ones (value addr) := by
      refine ⟨bigEndian 4 (broadcastAddress ones (value addr)), length_bigEndian _ _, ?_⟩
      rw [value_bigEndian, Nat.mod_eq_of_lt]
      unfold broadcastAddress
      omega
    have hnet : SameNetwork ones (value last) (value addr) := by
      rw [sameNetwork_iff, hlast, broadcastAddress]
      omega
    have hfirst : value last ≠ networkAddress ones (value addr) := by
      rw [hlast, broadcastAddress]
      omega
    have hlocal : last ≠ own := fun heq ↦ hne (heq ▸ hlast)
    exact (h.not_edge last ((hmem last).mpr ⟨⟨hlen, hnet, hfirst⟩, hlocal⟩)).2 hlast
  · intro hown'
    have hlast (ip : IP) (hlen : ip.length = 4) (hne : ip ≠ own) :
        value ip ≠ broadcastAddress ones (value addr) := by
      intro heq
      refine hne ?_
      rw [← bigEndian_value ip, ← bigEndian_value own, hlen, hown, heq, hown']
    refine ⟨(nodup_behindFirst (by omega) hvalue).filter _, fun ip ↦ ?_, fun ip hip ↦ ?_⟩
    · rw [hmem]
      constructor
      · rintro ⟨⟨hlen, hnet, hfirst⟩, hne⟩
        exact ⟨hlen, ⟨hnet, hfirst, hlast ip hlen hne⟩, hne⟩
      · rintro ⟨hlen, ⟨hnet, hfirst, -⟩, hne⟩
        exact ⟨⟨hlen, hnet, hfirst⟩, hne⟩
    · obtain ⟨⟨hlen, -, hfirst⟩, hne⟩ := (hmem ip).mp hip
      exact ⟨hfirst, hlast ip hlen hne⟩

/-- **A scan probes the hosts of the network**, each in one goroutine, exactly when the broadcast
address is the local one. -/
theorem scan_hosts_iff {subnet : IPNet} (hones : ones ≤ 30)
    (hmask : subnet.mask = some (CIDRMask ones 4)) (haddr : subnet.ip.to4 = some addr)
    (hown : localIP.to4 = some own) :
    (∃ targets, scanTargets subnet localIP = some targets ∧
        ProbesHosts (max ones 16) addr own targets) ↔
      value own = broadcastAddress (max ones 16) (value addr) := by
  have hiff := probesHosts_iff (show max ones 16 ≤ 30 by omega) (IP.length_to4 haddr)
    (IP.length_to4 hown)
  rw [scanTargets_eq hmask hones haddr hown]
  constructor
  · rintro ⟨targets, htargets, hhosts⟩
    cases htargets
    exact hiff.mp hhosts
  · intro hlast
    exact ⟨_, rfl, hiff.mpr hlast⟩

/-- A network of two hosts, from one of them. -/
theorem scan_hosts_iff_two :
    (∃ targets, scanTargets ⟨[192, 168, 1, 1], some (CIDRMask 30 4)⟩ [192, 168, 1, 1] =
        some targets ∧ ProbesHosts 30 [192, 168, 1, 1] [192, 168, 1, 1] targets) ↔
      value [192, 168, 1, 1] = broadcastAddress 30 (value [192, 168, 1, 1]) :=
  @scan_hosts_iff _ _ _ 30 _ (by decide) rfl rfl rfl

/-- The broadcast address of such a network is probed. -/
theorem broadcast_probed :
    ¬∃ targets, scanTargets ⟨[192, 168, 1, 1], some (CIDRMask 30 4)⟩ [192, 168, 1, 1] =
        some targets ∧ ProbesHosts 30 [192, 168, 1, 1] [192, 168, 1, 1] targets := by
  rintro ⟨targets, htargets, hhosts⟩
  have heq : some [[192, 168, 1, 2], [192, 168, 1, 3]] = some targets := htargets
  cases heq
  exact (hhosts.not_edge [192, 168, 1, 3] (by decide)).2 (by decide)

end AllRelay.Discovery
