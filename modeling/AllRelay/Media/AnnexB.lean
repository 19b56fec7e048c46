import AllRelay.Hub.State
import AllRelay.Library.NalUnit

/-!
# From AVCC to Annex B

`video/annexb.go`. `ConfigToAnnexB` and `FrameToAnnexB` turn a list of NAL units with their lengths
into an Annex B stream. They guess the format of their argument from its first bytes, and leave it
alone if it begins with a start code, which the length of a first unit may look like
(`codeAt_avcc`).

A function returns `none` if it panics on an index or a slice that is out of range, or does not
end. A slice is a window of the data, so two of them begin at the same address if they begin at the
same index.
-/

open NalUnit Wire

namespace AllRelay.Video

/-! ### Slices -/

/-- A slice of the data. -/
structure Slice (data : Bytes) where
  start : ℕ
  stop : ℕ
  start_le : start ≤ stop
  stop_le : stop ≤ data.length

variable {data : Bytes} {units : List Bytes} {nal : Slice data} {nals : List (Slice data)}

/-- `data[start:stop]`. -/
def slice (data : Bytes) (start stop : ℕ) : Option (Slice data) :=
  if h : start ≤ stop ∧ stop ≤ data.length then some ⟨start, stop, h.1, h.2⟩ else none

namespace Slice

/-- All of the data. -/
def all (data : Bytes) : Slice data := ⟨0, data.length, Nat.zero_le _, Nat.le_refl _⟩

/-- The bytes of a slice. -/
def bytes (nal : Slice data) : Bytes :=
  (data.drop nal.start).take (nal.stop - nal.start)

/-- `&nal[0] == &data[0]`. -/
def beginsData (nal : Slice data) : Option Bool :=
  if nal.start < nal.stop ∧ 0 < data.length then some (nal.start = 0) else none

end Slice

/-- `data[i] == b && data[i+1] == …`. -/
def bytesAt (data : Bytes) : ℕ → Bytes → Option Bool
  | _, [] => some true
  | i, b :: bs => data[i]?.bind fun c ↦ if c = b then bytesAt data (i + 1) bs else some false

/-- `pos+len(bs) <= len(data) && data[pos] == b && …`. -/
def occursAt (data : Bytes) (pos : ℕ) (bs : Bytes) : Option Bool :=
  if pos + bs.length ≤ data.length then bytesAt data pos bs else some false

/-! ### The conversion -/

/-- `annexBStartCode4`. -/
def annexBStartCode4 : Bytes := [0, 0, 0, 1]

/-- `annexBStartCode3`. -/
def annexBStartCode3 : Bytes := [0, 0, 1]

/-- `IsAnnexB`. -/
def isAnnexB (data : Bytes) : Option Bool :=
  if data.length < 3 then some false
  else do
    if ← bytesAt data 0 annexBStartCode3 then return true
    occursAt data 0 annexBStartCode4

/-- `ToAnnexB`. -/
def toAnnexB (nal : Bytes) : Option Bytes := do
  if ← isAnnexB nal then return nal
  return annexBStartCode4 ++ nal

/-- The start code at an index of the data: how many bytes of it there are. -/
def startCodeAt (data : Bytes) (pos : ℕ) : Option ℕ := do
  if ← occursAt data pos annexBStartCode4 then return 4
  if ← occursAt data pos annexBStartCode3 then return 3
  return 0

/-- The loop of `SplitNALs` for the next start code, of `n` rounds from `i` on. -/
def findStart (data : Bytes) : ℕ → ℕ → Option (Option ℕ)
  | 0, _ => some none
  | n + 1, i => do
    if ← bytesAt data i [0, 0] then
      if ← bytesAt data (i + 2) [1] then return some i
      if ← occursAt data (i + 2) [0, 1] then return some i
    findStart data n (i + 1)

/-- The loop of `SplitNALs` over an Annex B stream. A round that does not get on would be repeated
forever. -/
def splitAnnexB (data : Bytes) (pos : ℕ) (nals : List (Slice data)) : Option (List (Slice data)) :=
  if pos < data.length then do
    let skipped ← startCodeAt data pos
    let next ← findStart data (data.length - 3 - (pos + skipped)) (pos + skipped)
    let stop := next.getD data.length
    if pos < stop then
      let nal ← slice data pos stop
      splitAnnexB data stop (nals ++ [nal])
    else none
  else some nals
termination_by data.length - pos

/-- The loop of `SplitNALs` over units with their lengths. -/
def splitAvcc (data : Bytes) (pos : ℕ) (nals : List (Slice data)) : Option (List (Slice data)) :=
  if pos < data.length then
    if data.length < pos + 4 then some nals
    else do
      let size := value (← slice data pos (pos + 4)).bytes
      if data.length < pos + 4 + size then return nals
      let nal ← slice data (pos + 4) (pos + 4 + size)
      splitAvcc data (pos + 4 + size) (nals ++ [nal])
  else some nals
termination_by data.length - pos

/-- The loops of `SplitNALs`. -/
def splitLoop (data : Bytes) : Option (List (Slice data)) := do
  if ← isAnnexB data then splitAnnexB data 0 [] else splitAvcc data 0 []

/-- `SplitNALs`. -/
def splitNALs (data : Bytes) : Option (List (Slice data)) :=
  if data.length < 4 then some [.all data]
  else do
    let nals ← splitLoop data
    return if nals.length = 0 then [.all data] else nals

/-- The end of `ConfigToAnnexB` and of `FrameToAnnexB`, behind the call of `SplitNALs`. -/
def joinNALs (data : Bytes) (nals : List (Slice data)) : Option Bytes := do
  let whole ← match nals with
    | [nal] => nal.beginsData
    | _ => some false
  if whole then toAnnexB data
  else return nals.flatMap fun nal ↦ annexBStartCode4 ++ nal.bytes

/-- `ConfigToAnnexB`. -/
def configToAnnexB (config : Bytes) : Option Bytes :=
  if config.length = 0 then some config
  else do
    if ← isAnnexB config then return config
    joinNALs config (← splitNALs config)

/-- `FrameToAnnexB`. -/
def frameToAnnexB (frame : Bytes) : Option Bytes :=
  if frame.length = 0 then some frame
  else do
    if ← isAnnexB frame then return frame
    let nals ← splitNALs frame
    if nals.length = 0 then return frame
    joinNALs frame nals

/-! ### Start codes -/

/-- A start code begins at this index. -/
def CodeAt (data : Bytes) (pos : ℕ) : Prop :=
  annexBStartCode3 <+: data.drop pos ∨ annexBStartCode4 <+: data.drop pos

instance (data : Bytes) (pos : ℕ) : Decidable (CodeAt data pos) :=
  inferInstanceAs (Decidable (_ ∨ _))

theorem bytesAt_eq {i : ℕ} {bs : Bytes} (h : i + bs.length ≤ data.length) :
    bytesAt data i bs = some (decide (bs <+: data.drop i)) := by
  induction bs generalizing i with
  | nil => rfl
  | cons b bs ih =>
    rw [List.length_cons] at h
    have hi : i < data.length := by omega
    rw [bytesAt, List.getElem?_eq_getElem hi, Option.bind_some, List.drop_eq_getElem_cons hi]
    by_cases hb : data[i] = b
    · rw [if_pos hb, ih (by omega)]
      simp [hb]
    · have hno : ¬b :: bs <+: data[i] :: data.drop (i + 1) := fun hpre ↦
        hb (List.cons_prefix_cons.1 hpre).1.symm
      rw [if_neg hb, decide_eq_false hno]

theorem occursAt_eq {bs : Bytes} (hne : bs ≠ []) (data : Bytes) (pos : ℕ) :
    occursAt data pos bs = some (decide (bs <+: data.drop pos)) := by
  rw [occursAt]
  split
  · rename_i h
    exact bytesAt_eq h
  · rename_i h
    have hno : ¬bs <+: data.drop pos := by
      intro hpre
      have hlen := hpre.length_le
      have hpos := List.length_pos_of_ne_nil hne
      rw [List.length_drop] at hlen
      omega
    rw [decide_eq_false hno]

theorem CodeAt.bounds {pos : ℕ} (h : CodeAt data pos) : pos + 3 ≤ data.length := by
  have hdrop : (data.drop pos).length = data.length - pos := List.length_drop
  rcases h with h | h
  · have hlen : 3 ≤ data.length - pos := hdrop ▸ h.length_le
    omega
  · have hlen : 4 ≤ data.length - pos := hdrop ▸ h.length_le
    omega

/-- `IsAnnexB` never fails. -/
theorem isAnnexB_eq (data : Bytes) : isAnnexB data = some (decide (CodeAt data 0)) := by
  rw [isAnnexB]
  split
  · rename_i h3
    have hno : ¬CodeAt data 0 := fun h ↦ by
      have := h.bounds
      omega
    rw [decide_eq_false hno]
  · rename_i h3
    have hlen : 0 + annexBStartCode3.length ≤ data.length := Nat.le_of_not_lt h3
    rw [bytesAt_eq hlen, occursAt_eq (by decide)]
    by_cases hc3 : annexBStartCode3 <+: data.drop 0
    · have hyes : CodeAt data 0 := .inl hc3
      rw [decide_eq_true hc3, decide_eq_true hyes]
      rfl
    · have hiff : CodeAt data 0 ↔ annexBStartCode4 <+: data.drop 0 := or_iff_right hc3
      rw [decide_eq_false hc3, decide_eq_decide.2 hiff]
      rfl

/-- **The start code** at an index is skipped. -/
theorem startCodeAt_spec {pos : ℕ} (h : CodeAt data pos) :
    ∃ skipped, startCodeAt data pos = some skipped ∧ 0 < skipped ∧ pos + skipped ≤ data.length := by
  have hdrop : (data.drop pos).length = data.length - pos := List.length_drop
  have hbounds := h.bounds
  rw [startCodeAt, occursAt_eq (by decide), occursAt_eq (by decide)]
  by_cases hc4 : annexBStartCode4 <+: data.drop pos
  · have hlen : 4 ≤ data.length - pos := hdrop ▸ hc4.length_le
    rw [decide_eq_true hc4]
    exact ⟨4, rfl, by decide, by omega⟩
  · have hc3 : annexBStartCode3 <+: data.drop pos := h.resolve_right hc4
    rw [decide_eq_false hc4, decide_eq_true hc3]
    exact ⟨3, rfl, by decide, hbounds⟩

/-- Two bytes of a start code, then the rest of it. -/
theorem append_prefix_drop {pos k : ℕ} {bs more : Bytes} (hk : bs.length = k)
    (h : bs <+: data.drop pos) (hmore : more <+: data.drop (pos + k)) :
    bs ++ more <+: data.drop pos := by
  obtain ⟨tail, htail⟩ := h
  have hrest : data.drop (pos + k) = tail := by
    rw [← List.drop_drop, ← htail, ← hk, List.drop_left]
  rw [hrest] at hmore
  rw [← htail]
  exact (List.prefix_append_right_inj bs).2 hmore

/-- **The next start code** is found where there is one. -/
theorem findStart_spec (data : Bytes) {n i : ℕ} (h : i + n + 3 ≤ data.length ∨ n = 0) :
    ∃ next, findStart data n i = some next ∧ ∀ j ∈ next, i ≤ j ∧ CodeAt data j := by
  induction n generalizing i with
  | zero =>
    refine ⟨none, rfl, fun j hj ↦ ?_⟩
    cases hj
  | succ n ih =>
    have hlen : i + (n + 1) + 3 ≤ data.length := h.resolve_right (Nat.succ_ne_zero n)
    have hzeros : i + [(0 : UInt8), 0].length ≤ data.length := by
      show i + 2 ≤ _
      omega
    have hone : i + 2 + [(1 : UInt8)].length ≤ data.length := by
      show i + 2 + 1 ≤ _
      omega
    obtain ⟨next, hnext, hspec⟩ := ih (i := i + 1) (.inl (by omega))
    have hspec' : ∀ j ∈ next, i ≤ j ∧ CodeAt data j := fun j hj ↦
      ⟨Nat.le_of_succ_le (hspec j hj).1, (hspec j hj).2⟩
    have hfound : CodeAt data i → ∀ j ∈ some i, i ≤ j ∧ CodeAt data j := by
      intro hcode j hj
      obtain rfl : i = j := Option.some.inj hj
      exact ⟨Nat.le_refl i, hcode⟩
    rw [findStart, bytesAt_eq hzeros, bytesAt_eq hone, occursAt_eq (by decide)]
    by_cases h00 : [0, 0] <+: data.drop i
    · rw [decide_eq_true h00]
      by_cases h1 : [1] <+: data.drop (i + 2)
      · rw [decide_eq_true h1]
        exact ⟨some i, rfl, hfound (.inl (append_prefix_drop rfl h00 h1))⟩
      · rw [decide_eq_false h1]
        by_cases h01 : [0, 1] <+: data.drop (i + 2)
        · rw [decide_eq_true h01]
          exact ⟨some i, rfl, hfound (.inr (append_prefix_drop rfl h00 h01))⟩
        · rw [decide_eq_false h01]
          exact ⟨next, hnext, hspec'⟩
    · rw [decide_eq_false h00]
      exact ⟨next, hnext, hspec'⟩

/-! ### Slices that are no data or not all of it -/

/-- An empty slice has no first byte. -/
theorem Slice.beginsData_of_empty (h : nal.stop ≤ nal.start) : nal.beginsData = none :=
  if_neg fun hlt ↦ Nat.not_lt.2 h hlt.1

/-- A slice behind the front of the data does not begin it. -/
theorem Slice.beginsData_of_pos (hpos : 0 < nal.start) (hlt : nal.start < nal.stop) :
    nal.beginsData = some false := by
  have hdata : 0 < data.length := by
    have := nal.stop_le
    omega
  rw [beginsData, if_pos ⟨hlt, hdata⟩, decide_eq_false (Nat.ne_of_gt hpos)]

/-! ### The split returns -/

theorem slice_of_le {start stop : ℕ} (h : start ≤ stop) (h' : stop ≤ data.length) :
    slice data start stop = some ⟨start, stop, h, h'⟩ :=
  dif_pos ⟨h, h'⟩

/-- An Annex B stream is split at its start codes: every round gets on. -/
theorem splitAnnexB_returns {pos : ℕ} (h : CodeAt data pos ∨ pos = data.length)
    (nals : List (Slice data)) :
    ∃ out, splitAnnexB data pos nals = some (nals ++ out) := by
  induction hk : data.length - pos using Nat.strongRecOn generalizing pos nals with
  | ind k ih =>
    rw [splitAnnexB]
    split
    · rename_i hpos
      have hcode : CodeAt data pos := h.resolve_right (Nat.ne_of_lt hpos)
      obtain ⟨skipped, hskip, hskipped, hle⟩ := startCodeAt_spec hcode
      obtain ⟨next, hnext, hspec⟩ := findStart_spec data
        (n := data.length - 3 - (pos + skipped)) (i := pos + skipped) (by omega)
      have hstop : pos < next.getD data.length ∧ next.getD data.length ≤ data.length ∧
          (CodeAt data (next.getD data.length) ∨ next.getD data.length = data.length) := by
        cases next with
        | none => exact ⟨hpos, Nat.le_refl _, .inr rfl⟩
        | some j =>
          obtain ⟨hj, hcodej⟩ := hspec j rfl
          have := hcodej.bounds
          exact ⟨by show pos < j; omega, by show j ≤ _; omega, .inl hcodej⟩
      obtain ⟨hlt, hstople, hcodestop⟩ := hstop
      obtain ⟨out, hout⟩ := ih _ (by omega) hcodestop
        (nals ++ [⟨pos, _, Nat.le_of_lt hlt, hstople⟩]) rfl
      rw [hskip]
      simp only [Option.bind_eq_bind, Option.bind_some, hnext, if_pos hlt,
        slice_of_le (Nat.le_of_lt hlt) hstople, hout]
      exact ⟨_, by rw [List.append_assoc]⟩
    · exact ⟨[], by rw [List.append_nil]⟩

/-- The length that is read at an index of the data. -/
def sizeAt (data : Bytes) (pos : ℕ) : ℕ :=
  value ((data.drop pos).take 4)

/-- The slice from which it is read. -/
theorem Slice.bytes_length {pos : ℕ} (h : pos + 4 ≤ data.length) :
    (⟨pos, pos + 4, Nat.le_add_right _ _, h⟩ : Slice data).bytes = (data.drop pos).take 4 := by
  rw [bytes, Nat.add_sub_cancel_left]

/-- A round that finds a whole unit. -/
theorem splitAvcc_of_le {pos : ℕ} (h : pos + 4 + sizeAt data pos ≤ data.length)
    (nals : List (Slice data)) :
    splitAvcc data pos nals = splitAvcc data (pos + 4 + sizeAt data pos)
      (nals ++ [⟨pos + 4, pos + 4 + sizeAt data pos, Nat.le_add_right _ _, h⟩]) := by
  rw [splitAvcc, if_pos (by omega), if_neg (by omega),
    slice_of_le (Nat.le_add_right _ _) (by omega)]
  simp only [Option.bind_eq_bind, Option.bind_some, Slice.bytes_length]
  rw [← sizeAt, if_neg (Nat.not_lt.2 h), slice_of_le (Nat.le_add_right _ _) h]
  rfl

/-- A round that finds none. -/
theorem splitAvcc_of_lt {pos : ℕ} (h : data.length < pos + 4 + sizeAt data pos)
    (nals : List (Slice data)) : splitAvcc data pos nals = some nals := by
  rw [splitAvcc]
  split
  · split
    · rfl
    · rename_i hpos
      have hle : pos + 4 ≤ data.length := Nat.le_of_not_lt hpos
      rw [slice_of_le (Nat.le_add_right _ _) hle]
      simp only [Option.bind_eq_bind, Option.bind_some, Slice.bytes_length]
      rw [← sizeAt, if_pos h]
      rfl
  · rfl

theorem splitAvcc_returns (data : Bytes) (pos : ℕ) (nals : List (Slice data)) :
    ∃ out, splitAvcc data pos nals = some (nals ++ out) := by
  induction hk : data.length - pos using Nat.strongRecOn generalizing pos nals with
  | ind k ih =>
    obtain h | h := Nat.lt_or_ge data.length (pos + 4 + sizeAt data pos)
    · exact ⟨[], by rw [splitAvcc_of_lt h, List.append_nil]⟩
    · obtain ⟨out, hout⟩ := ih (data.length - (pos + 4 + sizeAt data pos)) (by omega) _
        (nals ++ [⟨pos + 4, pos + 4 + sizeAt data pos, Nat.le_add_right _ _, h⟩]) rfl
      exact ⟨_, by rw [splitAvcc_of_le h, hout, List.append_assoc]⟩

theorem splitLoop_returns (data : Bytes) : ∃ nals, splitLoop data = some nals := by
  rw [splitLoop, isAnnexB_eq]
  by_cases hcode : CodeAt data 0
  · obtain ⟨out, hout⟩ := splitAnnexB_returns (.inl hcode) []
    rw [decide_eq_true hcode]
    exact ⟨_, hout⟩
  · obtain ⟨out, hout⟩ := splitAvcc_returns data 0 []
    rw [decide_eq_false hcode]
    exact ⟨_, hout⟩

theorem splitNALs_of_splitLoop (hlen : 4 ≤ data.length) (h : splitLoop data = some nals) :
    splitNALs data = some (if nals.length = 0 then [.all data] else nals) := by
  rw [splitNALs, if_neg (Nat.not_lt.2 hlen), h]
  rfl

/-- **The split** never fails, and gives something. -/
theorem splitNALs_returns (data : Bytes) : ∃ nals, splitNALs data = some nals ∧ nals ≠ [] := by
  obtain hlt | hle := Nat.lt_or_ge data.length 4
  · exact ⟨[.all data], if_pos hlt, List.cons_ne_nil _ _⟩
  · obtain ⟨nals, hnals⟩ := splitLoop_returns data
    refine ⟨_, splitNALs_of_splitLoop hle hnals, ?_⟩
    split
    · exact List.cons_ne_nil _ _
    · rename_i hne
      exact mt List.length_eq_zero_iff.2 hne

/-- The functions agree: `FrameToAnnexB` handles a case besides that does not arise. -/
theorem frameToAnnexB_eq (frame : Bytes) : frameToAnnexB frame = configToAnnexB frame := by
  obtain ⟨nals, hnals, hne⟩ := splitNALs_returns frame
  have hlen : nals.length ≠ 0 := mt List.length_eq_zero_iff.1 hne
  rw [frameToAnnexB, configToAnnexB, hnals]
  simp only [Option.bind_eq_bind, Option.bind_some, if_neg hlen]

/-- **A start code** at the front: the data is left alone. -/
theorem configToAnnexB_of_code (h : CodeAt data 0) : configToAnnexB data = some data := by
  rw [configToAnnexB, isAnnexB_eq, decide_eq_true h]
  split <;> rfl

/-- Otherwise, its units are joined. -/
theorem configToAnnexB_of_not_code (hne : data ≠ []) (h : ¬CodeAt data 0)
    (hnals : splitNALs data = some nals) : configToAnnexB data = joinNALs data nals := by
  rw [configToAnnexB, if_neg (mt List.length_eq_zero_iff.1 hne), isAnnexB_eq, decide_eq_false h,
    hnals]
  rfl

/-- Without a start code at the front, the units are those with their lengths. -/
theorem splitLoop_of_not_code (h : ¬CodeAt data 0) : splitLoop data = splitAvcc data 0 [] := by
  rw [splitLoop, isAnnexB_eq, decide_eq_false h]
  rfl

/-! ### Units with their lengths -/

/-- **The split of an AVCC stream** gives its units, none of them at the front of the data. -/
theorem splitAvcc_avcc {pos : ℕ} (hlt : ∀ unit ∈ units, unit.length < 256 ^ 4)
    (hdata : data.drop pos = avcc units) (nals : List (Slice data)) :
    ∃ out, splitAvcc data pos nals = some (nals ++ out) ∧ out.map Slice.bytes = units ∧
      ∀ nal ∈ out, 4 ≤ nal.start := by
  induction units generalizing pos nals with
  | nil =>
    have hle : data.length ≤ pos := List.drop_eq_nil_iff.1 hdata
    exact ⟨[], by rw [splitAvcc_of_lt (by omega), List.append_nil], rfl, List.forall_mem_nil _⟩
  | cons unit units ih =>
    obtain ⟨hunit, hlt⟩ := List.forall_mem_cons.1 hlt
    have hprefix := length_bigEndian 4 unit.length
    have hcons : data.drop pos = bigEndian 4 unit.length ++ (unit ++ avcc units) := by
      rw [hdata, ← List.append_assoc]
      rfl
    have hsize : sizeAt data pos = unit.length := by
      have hvalue := value_bigEndian 4 unit.length
      rw [Nat.mod_eq_of_lt hunit] at hvalue
      rw [sizeAt, hcons, List.take_append_of_le_length (Nat.le_of_eq hprefix.symm),
        List.take_of_length_le (Nat.le_of_eq hprefix), hvalue]
    have hunits : data.drop (pos + 4) = unit ++ avcc units := by
      rw [← List.drop_drop, hcons, List.drop_append, hprefix, Nat.sub_self, List.drop_zero,
        List.drop_eq_nil_of_le (Nat.le_of_eq hprefix), List.nil_append]
    have hrest : data.drop (pos + 4 + unit.length) = avcc units := by
      rw [← List.drop_drop, hunits, List.drop_left]
    have hle : pos + 4 + sizeAt data pos ≤ data.length := by
      have hlen := congrArg List.length hcons
      rw [List.length_drop, List.length_append, List.length_append, hprefix] at hlen
      rw [hsize]
      omega
    rw [← hsize] at hrest
    obtain ⟨out, hout, hbytes, hstart⟩ :=
      ih hlt hrest (nals ++ [⟨pos + 4, _, Nat.le_add_right _ _, hle⟩])
    refine ⟨⟨pos + 4, _, Nat.le_add_right _ _, hle⟩ :: out, ?_, ?_, ?_⟩
    · rw [splitAvcc_of_le hle, hout, List.append_assoc]
      rfl
    · have hfirst : (⟨pos + 4, _, Nat.le_add_right _ _, hle⟩ : Slice data).bytes = unit := by
        rw [Slice.bytes, Nat.add_sub_cancel_left, hunits, hsize, List.take_left]
      rw [List.map_cons, hfirst, hbytes]
    · exact List.forall_mem_cons.2 ⟨Nat.le_add_left _ _, hstart⟩

/-- The first unit is so long that its length looks like a start code. -/
def LooksAnnexB (units : List Bytes) : Prop :=
  ∃ unit ∈ units.head?, unit.length = 1 ∨ 256 ≤ unit.length ∧ unit.length < 512

theorem eq_ofNat_iff {c : UInt8} {n : ℕ} : c = UInt8.ofNat n ↔ n % 256 = c.toNat := by
  rw [← UInt8.toNat_inj, UInt8.toNat_ofNat', eq_comm]

/-- Which AVCC streams begin with a start code. -/
theorem codeAt_avcc (hlt : ∀ unit ∈ units, unit.length < 256 ^ 4) :
    CodeAt (avcc units) 0 ↔ LooksAnnexB units := by
  cases units with
  | nil =>
    constructor
    · intro h
      have hlen : 3 ≤ ([] : Bytes).length := h.bounds
      exact absurd hlen (by decide)
    · rintro ⟨unit, hunit, -⟩
      cases hunit
  | cons unit units =>
    have hunit := hlt unit List.mem_cons_self
    have hcons : (avcc (unit :: units)).drop 0 = UInt8.ofNat (unit.length / 256 ^ 3) ::
        UInt8.ofNat (unit.length / 256 ^ 2) :: UInt8.ofNat (unit.length / 256 ^ 1) ::
          UInt8.ofNat (unit.length / 256 ^ 0) :: (unit ++ avcc units) := by
      rw [List.drop_zero, avcc, List.flatMap_cons, List.append_assoc]
      rfl
    have hlooks : LooksAnnexB (unit :: units) ↔
        unit.length = 1 ∨ 256 ≤ unit.length ∧ unit.length < 512 := by
      constructor
      · rintro ⟨_, hmem, h⟩
        cases hmem
        exact h
      · exact fun h ↦ ⟨unit, rfl, h⟩
    rw [CodeAt, hcons, hlooks, annexBStartCode3, annexBStartCode4]
    simp only [List.cons_prefix_cons, List.nil_prefix, and_true, eq_ofNat_iff]
    have h0 : (0 : UInt8).toNat = 0 := rfl
    have h1 : (1 : UInt8).toNat = 1 := rfl
    rw [h0, h1]
    omega

/-- What the units are as an Annex B stream. -/
def converted (units : List Bytes) : Bytes :=
  annexB (units.map fun unit ↦ (true, unit))

theorem converted_cons (unit : Bytes) (units : List Bytes) :
    converted (unit :: units) = annexBStartCode4 ++ (unit ++ converted units) :=
  annexB_cons true unit _

/-- The two streams of some units are the same if all of them are one byte long. -/
theorem avcc_eq_converted (hlt : ∀ unit ∈ units, unit.length < 256 ^ 4) :
    avcc units = converted units ↔ ∀ unit ∈ units, unit.length = 1 := by
  induction units with
  | nil => exact ⟨fun _ ↦ List.forall_mem_nil _, fun _ ↦ rfl⟩
  | cons unit units ih =>
    obtain ⟨hunit, hlt⟩ := List.forall_mem_cons.1 hlt
    have hprefix : bigEndian 4 unit.length = annexBStartCode4 ↔ unit.length = 1 := by
      constructor
      · intro h
        have hvalue := value_bigEndian 4 unit.length
        rw [h, Nat.mod_eq_of_lt hunit] at hvalue
        exact hvalue.symm
      · intro h
        rw [h]
        rfl
    have hcons : avcc (unit :: units) = bigEndian 4 unit.length ++ (unit ++ avcc units) := by
      rw [← List.append_assoc]
      rfl
    rw [hcons, converted_cons, List.forall_mem_cons, ← hprefix, ← ih hlt]
    constructor
    · intro h
      obtain ⟨hcode, hrest⟩ := List.append_inj h (length_bigEndian 4 _)
      exact ⟨hcode, List.append_cancel_left hrest⟩
    · rintro ⟨hcode, hrest⟩
      rw [hcode, hrest]

/-- A list of slices is joined unless it is a slice at the front of the data, or an empty one. -/
theorem joinNALs_of_ne (h : ∀ nal, nals = [nal] → nal.beginsData = some false) :
    joinNALs data nals = some (nals.flatMap fun nal ↦ annexBStartCode4 ++ nal.bytes) := by
  obtain _ | ⟨nal, _ | ⟨nal', nals⟩⟩ := nals
  · rfl
  · rw [joinNALs, h nal rfl]
    rfl
  · rfl

/-- An AVCC stream that begins with no start code is converted. -/
theorem configToAnnexB_avcc (hlt : ∀ unit ∈ units, unit ≠ [] ∧ unit.length < 256 ^ 4)
    (hcode : ¬CodeAt (avcc units) 0) : configToAnnexB (avcc units) = some (converted units) := by
  cases units with
  | nil => rfl
  | cons unit units =>
    have hlen : 4 ≤ (avcc (unit :: units)).length := by
      rw [avcc, List.flatMap_cons, List.length_append, List.length_append, length_bigEndian]
      omega
    have hdrop : (avcc (unit :: units)).drop 0 = avcc (unit :: units) := List.drop_zero
    obtain ⟨out, hout, hbytes, hstart⟩ :=
      splitAvcc_avcc (fun unit hunit ↦ (hlt unit hunit).2) hdrop []
    rw [← splitLoop_of_not_code hcode, List.nil_append] at hout
    generalize hdata : avcc (unit :: units) = data at *
    have hne : out.length ≠ 0 := by
      rw [← List.length_map Slice.bytes, hbytes]
      exact Nat.succ_ne_zero _
    have hsplit := splitNALs_of_splitLoop hlen hout
    rw [if_neg hne] at hsplit
    -- a slice behind its length does not begin the data
    have hinside : ∀ nal, out = [nal] → nal.beginsData = some false := by
      rintro nal rfl
      have hstart := hstart nal List.mem_cons_self
      have hnonempty : nal.bytes.length ≠ 0 := by
        rw [← (List.cons.inj hbytes).1] at hlt
        exact mt List.length_eq_zero_iff.1 (hlt _ List.mem_cons_self).1
      rw [Slice.bytes, List.length_take, List.length_drop] at hnonempty
      exact Slice.beginsData_of_pos (by omega) (by omega)
    rw [configToAnnexB_of_not_code (List.ne_nil_of_length_pos (by omega)) hcode hsplit,
      joinNALs_of_ne hinside, converted, annexB, ← hbytes, List.flatMap_map, List.flatMap_map]
    rfl

/-! ### The index that is out of range -/

/-- A unit of length zero, and behind it no whole unit. -/
def EmptyUnit (data : Bytes) : Prop :=
  ∃ rest, data = [0, 0, 0, 0] ++ rest ∧ rest.length < 4 + value (rest.take 4)

/-- The lengths that the split reads there. -/
theorem emptyUnit_iff : EmptyUnit data ↔
    4 ≤ data.length ∧ sizeAt data 0 = 0 ∧ data.length < 4 + 4 + sizeAt data 4 := by
  constructor
  · rintro ⟨rest, rfl, hrest⟩
    refine ⟨Nat.le_add_left 4 rest.length, rfl, ?_⟩
    show rest.length + 4 < 4 + 4 + value (rest.take 4)
    omega
  · rintro ⟨hlen, hzero, hrest⟩
    obtain _ | ⟨a, _ | ⟨b, _ | ⟨c, _ | ⟨d, rest⟩⟩⟩⟩ := data
    · exact absurd hlen (by simp)
    · exact absurd hlen (by simp)
    · exact absurd hlen (by simp)
    · exact absurd hlen (by simp)
    · have hvalue : (((0 * 256 + a.toNat) * 256 + b.toNat) * 256 + c.toNat) * 256 + d.toNat = 0 :=
        hzero
      have hrest : rest.length + 4 < 4 + 4 + value (rest.take 4) := hrest
      have ha : a = 0 := UInt8.toNat_inj.1 (show a.toNat = 0 by omega)
      have hb : b = 0 := UInt8.toNat_inj.1 (show b.toNat = 0 by omega)
      have hc : c = 0 := UInt8.toNat_inj.1 (show c.toNat = 0 by omega)
      have hd : d = 0 := UInt8.toNat_inj.1 (show d.toNat = 0 by omega)
      refine ⟨rest, ?_, by omega⟩
      rw [ha, hb, hc, hd]
      rfl

theorem EmptyUnit.not_code (h : EmptyUnit data) : ¬CodeAt data 0 := by
  obtain ⟨rest, rfl, -⟩ := h
  rw [CodeAt, List.drop_zero, annexBStartCode3, annexBStartCode4]
  simp [List.cons_prefix_cons]

theorem toAnnexB_ne_none (nal : Bytes) : toAnnexB nal ≠ none := by
  rw [toAnnexB, isAnnexB_eq]
  cases decide (CodeAt nal 0) <;> exact Option.some_ne_none _

/-- **One slice**: its first byte is looked at, which an empty one has not. -/
theorem joinNALs_singleton_eq_none_iff (hne : data ≠ []) :
    joinNALs data [nal] = none ↔ nal.stop ≤ nal.start := by
  have hdata := List.length_pos_of_ne_nil hne
  obtain hlt | hle := Nat.lt_or_ge nal.start nal.stop
  · have hbegins : nal.beginsData = some (decide (nal.start = 0)) := if_pos ⟨hlt, hdata⟩
    refine ⟨fun h ↦ ?_, fun h ↦ absurd hlt (Nat.not_lt.2 h)⟩
    rw [joinNALs, hbegins] at h
    cases hstart : decide (nal.start = 0) with
    | false =>
      rw [hstart] at h
      cases h
    | true =>
      rw [hstart] at h
      exact absurd h (toAnnexB_ne_none data)
  · rw [joinNALs, Slice.beginsData_of_empty hle]
    exact ⟨fun _ ↦ hle, fun _ ↦ rfl⟩

/-- No whole unit: the data is taken for one. -/
theorem splitNALs_of_no_unit (hcode : ¬CodeAt data 0) (h : data.length < 4 + sizeAt data 0) :
    splitNALs data = some [.all data] := by
  obtain hlt | hle := Nat.lt_or_ge data.length 4
  · exact if_pos hlt
  · have hloop := splitLoop_of_not_code hcode
    rw [splitAvcc_of_lt (by omega)] at hloop
    exact splitNALs_of_splitLoop hle hloop

/-- One whole unit, which may be empty. -/
theorem splitNALs_of_one_unit (hcode : ¬CodeAt data 0) (h : 4 + sizeAt data 0 ≤ data.length)
    (hlt : data.length < 4 + sizeAt data 0 + 4 + sizeAt data (4 + sizeAt data 0)) :
    splitNALs data = some [⟨4, 4 + sizeAt data 0, Nat.le_add_right _ _, h⟩] := by
  have hloop := splitLoop_of_not_code hcode
  rw [splitAvcc_of_le (by omega)] at hloop
  simp only [Nat.zero_add] at hloop
  rw [splitAvcc_of_lt hlt] at hloop
  exact splitNALs_of_splitLoop (by omega) hloop

/-- Two whole units or more. -/
theorem splitNALs_of_two_units (hcode : ¬CodeAt data 0)
    (h : 4 + sizeAt data 0 + 4 + sizeAt data (4 + sizeAt data 0) ≤ data.length) :
    ∃ nal nal' out, splitNALs data = some (nal :: nal' :: out) := by
  have hloop := splitLoop_of_not_code hcode
  rw [splitAvcc_of_le (by omega)] at hloop
  simp only [Nat.zero_add] at hloop
  rw [splitAvcc_of_le h] at hloop
  obtain ⟨out, hout⟩ := splitAvcc_returns data _ _
  rw [hout] at hloop
  exact ⟨_, _, out, splitNALs_of_splitLoop (by omega) hloop⟩

/-- **What the conversion panics on**: `&nals[0][0]`, where the only slice is empty. -/
theorem configToAnnexB_eq_none_iff : configToAnnexB data = none ↔ EmptyUnit data := by
  by_cases hcode : CodeAt data 0
  · rw [configToAnnexB_of_code hcode]
    exact ⟨fun h ↦ (Option.some_ne_none _ h).elim, fun h ↦ absurd hcode h.not_code⟩
  rw [emptyUnit_iff]
  by_cases hne : data = []
  · subst hne
    exact ⟨fun h ↦ (Option.some_ne_none _ h).elim, fun h ↦ absurd h.1 (by decide)⟩
  have hdata := List.length_pos_of_ne_nil hne
  obtain hfirst | hfirst := Nat.lt_or_ge data.length (4 + sizeAt data 0)
  · have hsplit := splitNALs_of_no_unit hcode hfirst
    rw [configToAnnexB_of_not_code hne hcode hsplit, joinNALs_singleton_eq_none_iff hne]
    show data.length ≤ 0 ↔ _
    omega
  obtain hsecond | hsecond :=
    Nat.lt_or_ge data.length (4 + sizeAt data 0 + 4 + sizeAt data (4 + sizeAt data 0))
  · have hsplit := splitNALs_of_one_unit hcode hfirst hsecond
    rw [configToAnnexB_of_not_code hne hcode hsplit, joinNALs_singleton_eq_none_iff hne]
    show 4 + sizeAt data 0 ≤ 4 ↔ _
    constructor
    · intro h
      have hzero : sizeAt data 0 = 0 := by omega
      rw [hzero] at hsecond
      exact ⟨Nat.le_of_add_right_le hfirst, hzero, hsecond⟩
    · rintro ⟨-, hzero, -⟩
      rw [hzero]
  · obtain ⟨nal, nal', out, hsplit⟩ := splitNALs_of_two_units hcode hsecond
    rw [configToAnnexB_of_not_code hne hcode hsplit, joinNALs_of_ne fun _ h ↦ by cases h]
    refine ⟨fun h ↦ (Option.some_ne_none _ h).elim, ?_⟩
    rintro ⟨-, hzero, hlt⟩
    rw [hzero] at hsecond
    exact absurd hsecond (Nat.not_le.2 hlt)

/-- **The conversion**: an AVCC stream of units is converted exactly if it does not look like an
Annex B stream, or is the same as one; an Annex B stream is left alone; and both functions return on
all data but an empty unit with no whole unit behind it. -/
theorem annexB_conversion :
    (∀ units : List Bytes, (∀ unit ∈ units, unit ≠ [] ∧ unit.length < 2 ^ 31) →
      ((configToAnnexB (avcc units) = some (converted units) ∧
          frameToAnnexB (avcc units) = some (converted units)) ↔
        (LooksAnnexB units → ∀ unit ∈ units, unit.length = 1))) ∧
    (∀ data : Bytes, annexBStartCode3 <+: data ∨ annexBStartCode4 <+: data →
      configToAnnexB data = some data ∧ frameToAnnexB data = some data) ∧
    ∀ data : Bytes, ¬EmptyUnit data →
      (configToAnnexB data).isSome ∧ (frameToAnnexB data).isSome := by
  refine ⟨fun units hunits ↦ ?_, fun data hcode ↦ ?_, fun data hdata ↦ ?_⟩
  · have hlt : ∀ unit ∈ units, unit.length < 256 ^ 4 := fun unit hunit ↦
      (hunits unit hunit).2.trans (by decide)
    rw [frameToAnnexB_eq, and_self, ← codeAt_avcc hlt]
    by_cases hcode : CodeAt (avcc units) 0
    · rw [configToAnnexB_of_code hcode, Option.some_inj, avcc_eq_converted hlt]
      exact ⟨fun h _ ↦ h, fun h ↦ h hcode⟩
    · have hconfig := configToAnnexB_avcc (fun unit hunit ↦ ⟨(hunits unit hunit).1, hlt unit hunit⟩)
        hcode
      exact ⟨fun _ h ↦ absurd h hcode, fun _ ↦ hconfig⟩
  · have hconfig : configToAnnexB data = some data := configToAnnexB_of_code hcode
    exact ⟨hconfig, (frameToAnnexB_eq data).trans hconfig⟩
  · have hconfig : (configToAnnexB data).isSome := by
      rw [Option.isSome_iff_ne_none]
      exact mt configToAnnexB_eq_none_iff.1 hdata
    rw [frameToAnnexB_eq]
    exact ⟨hconfig, hconfig⟩

/-- Two units are converted. -/
theorem annexB_conversion_two :
    configToAnnexB [0, 0, 0, 2, 0x67, 0x42, 0, 0, 0, 1, 0x68] =
      some [0, 0, 0, 1, 0x67, 0x42, 0, 0, 0, 1, 0x68] := by
  have hlooks : ¬LooksAnnexB [[0x67, 0x42], [0x68]] := by
    rintro ⟨unit, hunit, h⟩
    cases hunit
    revert h
    decide
  have hunits : ∀ unit ∈ [[(0x67 : UInt8), 0x42], [0x68]], unit ≠ [] ∧ unit.length < 2 ^ 31 := by
    decide +kernel
  exact ((annexB_conversion.1 [[0x67, 0x42], [0x68]] hunits).2 fun h ↦ absurd h hlooks).1

/-- A unit of 300 bytes is not converted: its length begins with 00 00 01. -/
theorem not_annexB_conversion :
    ¬((∀ units : List Bytes, (∀ unit ∈ units, unit ≠ [] ∧ unit.length < 2 ^ 31) →
        configToAnnexB (avcc units) = some (converted units) ∧
          frameToAnnexB (avcc units) = some (converted units)) ∧
      (∀ data : Bytes, annexBStartCode3 <+: data ∨ annexBStartCode4 <+: data →
        configToAnnexB data = some data ∧ frameToAnnexB data = some data) ∧
      ∀ data : Bytes, (configToAnnexB data).isSome ∧ (frameToAnnexB data).isSome) := by
  rintro ⟨hconverts, -, -⟩
  have hunits : ∀ unit ∈ [List.replicate 300 (0x41 : UInt8)], unit ≠ [] ∧ unit.length < 2 ^ 31 := by
    decide +kernel
  have hcode : CodeAt (avcc [List.replicate 300 0x41]) 0 := by decide +kernel
  have heq := (configToAnnexB_of_code hcode).symm.trans (hconverts _ hunits).1
  have hprefix := congrArg (List.take 4) (Option.some.inj heq)
  revert hprefix
  decide +kernel

end AllRelay.Video
