import AllRelay.Hub.State
import Mathlib.Data.Int.Notation
import Mathlib.Data.List.Induction

/-!
# The sliding log file

`SlidingFileWriter` appends each record to one file. When the file has grown beyond `maxBytes`, it
is cut down to its last three quarters of that, from the next line on, if another line begins there.

The file is a suffix of what was written to it (`Slides.suffix`), and a record that ends a line and
fits the window survives its own cut (`Slides.whole`).
-/

namespace AllRelay.SlidingFile

/-- `\n`. -/
def newline : UInt8 := 10

/-- `DefaultMaxBytes`. -/
def defaultMaxBytes : ℕ := 10 * 1024 * 1024

/-- `SlidingFileWriter`. -/
structure SlidingFileWriter where
  maxBytes : ℕ
  maxBytes_pos : 0 < maxBytes

/-- `NewSlidingFileWriter`. -/
def newSlidingFileWriter (maxBytes : ℤ) : SlidingFileWriter :=
  if h : maxBytes ≤ 0 then ⟨defaultMaxBytes, by decide⟩ else ⟨maxBytes.toNat, by omega⟩

namespace SlidingFileWriter

variable (w : SlidingFileWriter)

/-- `retainBytes`. -/
def retainBytes : ℕ := w.maxBytes - w.maxBytes / 4

/-- Where the window begins that a cut retains. -/
def windowStart (data : Bytes) : ℕ := data.length - w.retainBytes

/-- Where the file begins after a cut. -/
def start (data : Bytes) : ℕ :=
  let start := w.windowStart data
  if 0 < start ∧ data[start - 1]? ≠ some newline then
    match (data.drop start).findIdx? (· = newline) with
    | some idx => if start + idx + 1 < data.length then start + idx + 1 else start
    | none => start
  else start

/-- `trimLocked`, with the content of the file. -/
def trim (data : Bytes) : Bytes :=
  if data.length ≤ w.maxBytes then data else data.drop (w.start data)

/-- `Write`: the number of bytes that it returns, and the new content. -/
def write (file p : Bytes) : ℕ × Bytes :=
  (p.length, w.trim (file ++ p))

/-- The content of the file after these records. -/
def content (initial : Bytes) (records : List Bytes) : Bytes :=
  records.foldl (fun file p ↦ (w.write file p).2) initial

end SlidingFileWriter

/-- The bytes end at the end of a line, or there are none. -/
def EndsLine (bytes : Bytes) : Prop :=
  ∀ b ∈ bytes.getLast?, b = newline

variable {w : SlidingFileWriter} {data old p initial : Bytes} {records : List Bytes}

/-- Only the last byte matters. -/
theorem EndsLine.append_left (h : EndsLine data) (before : Bytes) (hne : data ≠ []) :
    EndsLine (before ++ data) := by
  intro b hb
  rw [List.getLast?_append, Option.mem_def, Option.or_eq_some_iff] at hb
  obtain hb | ⟨hnone, -⟩ := hb
  · exact h b hb
  · exact absurd (List.getLast?_eq_none_iff.1 hnone) hne

/-! ### One cut -/

theorem SlidingFileWriter.retainBytes_pos : 0 < w.retainBytes := by
  have hpos := w.maxBytes_pos
  rw [SlidingFileWriter.retainBytes]
  omega

theorem SlidingFileWriter.retainBytes_le : w.retainBytes ≤ w.maxBytes :=
  Nat.sub_le _ _

/-- **What a cut does**: it begins at the window, or right after the first newline of the window. -/
theorem start_cases (w : SlidingFileWriter) (data : Bytes) :
    (w.start data = w.windowStart data ∧
      (w.windowStart data = 0 ∨ data[w.windowStart data - 1]? = some newline ∨
        ∀ i, w.windowStart data ≤ i → i + 1 < data.length → data[i]? ≠ some newline)) ∨
    (0 < w.windowStart data ∧ data[w.windowStart data - 1]? ≠ some newline) ∧
      ∃ i, w.windowStart data ≤ i ∧ w.start data = i + 1 ∧ i + 1 < data.length ∧
        data[i]? = some newline ∧
          ∀ j, w.windowStart data ≤ j → j < i → data[j]? ≠ some newline := by
  unfold SlidingFileWriter.start
  generalize w.windowStart data = s
  have hdrop : ∀ {i}, s ≤ i → data[i]? = (data.drop s)[i - s]? := by
    intro i hi
    rw [List.getElem?_drop, Nat.add_sub_cancel' hi]
  dsimp only
  split
  · rename_i hcut
    split
    · rename_i idx hidx
      obtain ⟨hlt, hnewline, hbefore⟩ := List.findIdx?_eq_some_iff_getElem.1 hidx
      have hbefore' : ∀ j, s ≤ j → j < s + idx → data[j]? ≠ some newline := by
        intro j hj hji h
        have hj' := hbefore (j - s) (by omega)
        rw [hdrop hj, List.getElem?_eq_some_iff] at h
        obtain ⟨hlt', h⟩ := h
        exact hj' (by simpa using h)
      split
      · rename_i hlen
        refine .inr ⟨hcut, s + idx, Nat.le_add_right s idx, rfl, hlen, ?_, hbefore'⟩
        rw [hdrop (Nat.le_add_right s idx), Nat.add_sub_cancel_left,
          List.getElem?_eq_getElem hlt]
        exact congrArg some (by simpa using hnewline)
      · rename_i hlen
        refine .inl ⟨rfl, .inr (.inr fun i hi hilen ↦ hbefore' i hi ?_)⟩
        omega
    · rename_i hnone
      refine .inl ⟨rfl, .inr (.inr fun i hi _ h ↦ ?_)⟩
      rw [hdrop hi] at h
      have hfalse := List.findIdx?_eq_none_iff.1 hnone newline (List.mem_of_getElem? h)
      exact of_decide_eq_false hfalse rfl
  · rename_i hcut
    rw [not_and_or, Nat.not_lt, Nat.le_zero, not_not] at hcut
    exact .inl ⟨rfl, hcut.imp_right .inl⟩

/-- A cut leaves something, and no more than the window. -/
theorem start_bounds (h : w.maxBytes < data.length) :
    w.windowStart data ≤ w.start data ∧ w.start data < data.length := by
  have hpos := w.retainBytes_pos
  have hlt : w.windowStart data < data.length := by
    rw [SlidingFileWriter.windowStart]
    omega
  obtain ⟨heq, -⟩ | ⟨-, i, hi, heq, hlen, -⟩ := start_cases w data
  · rw [heq]
    exact ⟨Nat.le_refl _, hlt⟩
  · rw [heq]
    exact ⟨Nat.le_succ_of_le hi, hlen⟩

theorem trim_of_lt (h : w.maxBytes < data.length) : w.trim data = data.drop (w.start data) :=
  if_neg (Nat.not_le.2 h)

theorem trim_suffix (w : SlidingFileWriter) (data : Bytes) : w.trim data <:+ data := by
  unfold SlidingFileWriter.trim
  split
  · exact List.suffix_rfl
  · exact List.drop_suffix _ _

theorem length_trim_le (w : SlidingFileWriter) (data : Bytes) :
    (w.trim data).length ≤ w.maxBytes := by
  obtain h | h := Nat.lt_or_ge w.maxBytes data.length
  · have hstart := (start_bounds h).1
    have hretain := w.retainBytes_le
    rw [trim_of_lt h, List.length_drop]
    rw [SlidingFileWriter.windowStart] at hstart
    omega
  · rwa [SlidingFileWriter.trim, if_pos h]

theorem getLast?_trim (w : SlidingFileWriter) (data : Bytes) :
    (w.trim data).getLast? = data.getLast? := by
  obtain h | h := Nat.lt_or_ge w.maxBytes data.length
  · rw [trim_of_lt h, List.getLast?_drop, if_neg (Nat.not_le.2 (start_bounds h).2)]
  · rw [SlidingFileWriter.trim, if_pos h]

/-- The bytes up to a newline end a line. -/
theorem endsLine_take {n : ℕ} (h : data[n]? = some newline) : EndsLine (data.take (n + 1)) := by
  intro b hb
  rw [List.getLast?_take, if_neg (Nat.succ_ne_zero n), Nat.add_sub_cancel, h] at hb
  exact (Option.some.inj hb).symm

/-- **A cut begins a line** if the window has a newline before its last byte. -/
theorem start_aligned (hnewline : newline ∈ (data.drop (w.windowStart data)).dropLast) :
    EndsLine (data.take (w.start data)) := by
  obtain ⟨heq, hstart⟩ | ⟨-, i, -, heq, -, hi, -⟩ := start_cases w data
  · rw [heq]
    obtain hzero | hline | hnone := hstart
    · rw [hzero]
      exact fun b hb ↦ absurd hb.symm (Option.some_ne_none b)
    · cases hs : w.windowStart data with
      | zero => exact fun b hb ↦ absurd hb.symm (Option.some_ne_none b)
      | succ n =>
        rw [hs, Nat.add_sub_cancel] at hline
        exact endsLine_take hline
    · obtain ⟨i, hi⟩ := List.mem_iff_getElem?.1 hnewline
      rw [List.getElem?_dropLast, List.length_drop] at hi
      obtain ⟨hlt, hi⟩ := Option.ite_none_right_eq_some.1 hi
      rw [List.getElem?_drop] at hi
      exact absurd hi (hnone _ (Nat.le_add_right _ _) (by omega))
  · rw [heq]
    exact endsLine_take hi

/-- **A record** that fits the window is kept whole if the bytes before it end a line. -/
theorem suffix_trim (hold : EndsLine old) (hp : p.length ≤ w.retainBytes) :
    p <:+ w.trim (old ++ p) := by
  obtain hlt | hle := Nat.lt_or_ge w.maxBytes (old ++ p).length
  swap
  · rw [SlidingFileWriter.trim, if_pos hle]
    exact List.suffix_append _ _
  rw [trim_of_lt hlt]
  have hwindow : w.windowStart (old ++ p) ≤ old.length := by
    rw [SlidingFileWriter.windowStart, List.length_append]
    omega
  -- The last byte of `old` is a newline in the window, unless the window begins after it.
  have hstart : w.start (old ++ p) ≤ old.length := by
    obtain ⟨heq, -⟩ | ⟨⟨hpos, hline⟩, i, hi, heq, -, -, hbefore⟩ := start_cases w (old ++ p)
    · exact heq ▸ hwindow
    · have hend : (old ++ p)[old.length - 1]? = some newline := by
        have hlt' : old.length - 1 < old.length := by omega
        rw [List.getElem?_append_left hlt', ← List.getLast?_eq_getElem?]
        cases hlast : old.getLast? with
        | none =>
          rw [List.getLast?_eq_none_iff.1 hlast] at hlt'
          exact absurd hlt' (Nat.not_lt_zero _)
        | some b => rw [hold b hlast]
      rw [heq]
      by_contra hlong
      obtain hwindow | hwindow := Nat.lt_or_eq_of_le hwindow
      · exact hbefore (old.length - 1) (by omega) (by omega) hend
      · rw [hwindow] at hline
        exact hline hend
  rw [List.drop_append_of_le_length hstart]
  exact List.suffix_append _ _

/-! ### Every sequence of writes -/

theorem content_append_singleton (w : SlidingFileWriter) (initial : Bytes) (records : List Bytes)
    (p : Bytes) : w.content initial (records ++ [p]) = w.trim (w.content initial records ++ p) := by
  rw [SlidingFileWriter.content, List.foldl_append]
  rfl

/-- The file is a suffix of what was written, with the same last byte. -/
theorem content_suffix (w : SlidingFileWriter) (initial : Bytes) (records : List Bytes) :
    w.content initial records <:+ initial ++ records.flatten ∧
      (w.content initial records).getLast? = (initial ++ records.flatten).getLast? := by
  induction records using List.reverseRecOn with
  | nil =>
    rw [List.flatten_nil, List.append_nil]
    exact ⟨List.suffix_rfl, rfl⟩
  | append_singleton records p ih =>
    rw [content_append_singleton, List.flatten_append, List.flatten_singleton, ← List.append_assoc]
    obtain ⟨hsuffix, hlast⟩ := ih
    constructor
    · exact (trim_suffix w _).trans (List.suffix_append_self_iff.2 hsuffix)
    · rw [getLast?_trim, List.getLast?_append, List.getLast?_append, hlast]

/-- A file that ends a line goes on doing so. -/
theorem endsLine_content (hinitial : EndsLine initial) (hrecords : ∀ r ∈ records, EndsLine r) :
    EndsLine (w.content initial records) := by
  rw [EndsLine, (content_suffix w initial records).2]
  induction records using List.reverseRecOn with
  | nil =>
    rw [List.flatten_nil, List.append_nil]
    exact hinitial
  | append_singleton records p ih =>
    intro b hb
    rw [List.flatten_append, List.flatten_singleton, ← List.append_assoc, List.getLast?_append,
      Option.mem_def, Option.or_eq_some_iff] at hb
    obtain hb | ⟨-, hb⟩ := hb
    · exact hrecords p (List.mem_append_right _ (List.mem_singleton_self p)) b hb
    · exact ih (fun r hr ↦ hrecords r (List.mem_append_left _ hr)) b hb

/-- What is claimed of the file after a call of `Write`. -/
structure Slides (w : SlidingFileWriter) (initial : Bytes) (records : List Bytes) (p : Bytes) :
    Prop where
  bounded : (w.content initial (records ++ [p])).length ≤ w.maxBytes
  /-- The file is a suffix of what was written. -/
  suffix : w.content initial (records ++ [p]) <:+ initial ++ (records ++ [p]).flatten
  /-- Its last byte is the last byte written. -/
  last : (w.content initial (records ++ [p])).getLast? =
    (initial ++ (records ++ [p]).flatten).getLast?
  /-- After a cut it begins a line, unless the window has no newline before its last byte. -/
  aligned : let data := w.content initial records ++ p
    w.maxBytes < data.length → newline ∈ (data.drop (w.windowStart data)).dropLast →
      ∃ before, before ++ w.content initial (records ++ [p]) =
        initial ++ (records ++ [p]).flatten ∧ EndsLine before
  /-- The newest record is kept whole if it fits the window and all that was written ends a line. -/
  whole : EndsLine initial → (∀ r ∈ records ++ [p], EndsLine r) → p.length ≤ w.retainBytes →
    p <:+ w.content initial (records ++ [p])

/-- **The sliding file**: whatever the file was at first and whatever is written to it. -/
theorem sliding_file (w : SlidingFileWriter) (initial : Bytes) (records : List Bytes) (p : Bytes) :
    Slides w initial records p := by
  have hsuffix := content_suffix w initial (records ++ [p])
  constructor
  case bounded =>
    rw [content_append_singleton]
    exact length_trim_le w _
  case suffix => exact hsuffix.1
  case last => exact hsuffix.2
  case aligned =>
    intro data hcut hnewline
    obtain ⟨before, hbefore⟩ := (content_suffix w initial records).1
    refine ⟨before ++ data.take (w.start data), ?_, ?_⟩
    · rw [content_append_singleton, trim_of_lt hcut, List.append_assoc, List.take_append_drop,
        List.flatten_append, List.flatten_singleton, ← List.append_assoc, ← List.append_assoc,
        hbefore]
    · refine (start_aligned hnewline).append_left before fun hnil ↦ ?_
      have hretain := w.retainBytes_le
      have hlow := (start_bounds hcut).1
      rw [SlidingFileWriter.windowStart] at hlow
      have hlen := congrArg List.length hnil
      rw [List.length_take, List.length_nil] at hlen
      omega
  case whole =>
    intro hinitial hrecords hp
    rw [content_append_singleton]
    exact suffix_trim (endsLine_content hinitial fun r hr ↦
      hrecords r (List.mem_append_left _ hr)) hp

end AllRelay.SlidingFile
