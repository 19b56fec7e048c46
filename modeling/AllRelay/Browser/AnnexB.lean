import AllRelay.Browser.ScreenViewer
import AllRelay.Library.NalUnit

/-!
# From Annex B to AVCC

The viewer takes the NAL units out of an Annex B stream and gives each its length, as the decoder
wants them. The scanner steps over a start code at once and never finds one in a unit, so it finds
the start codes that were written (`startCodes_annexB`), of three bytes or of four in any mix.
-/

namespace AllRelay.Browser

open NalUnit

/-- Where no start code begins, the scanner goes on. -/
theorem startCodes_cons {a : UInt8} {rest : Bytes}
    (h : ∀ c, c = 0 ∨ c = 1 → ∀ more, a :: rest ≠ 0 :: 0 :: c :: more) (i : ℕ) :
    startCodes i (a :: rest) = startCodes (i + 1) rest := by
  -- fewer than four bytes are not scanned any more
  obtain _ | ⟨b, _ | ⟨c, _ | ⟨d, rest⟩⟩⟩ := rest
  · rfl
  · rfl
  · rfl
  · rw [startCodes, if_neg, if_neg]
    · rintro ⟨rfl, rfl, rfl, -⟩
      exact h 0 (.inl rfl) (d :: rest) rfl
    · rintro ⟨rfl, rfl, rfl⟩
      exact h 1 (.inr rfl) (d :: rest) rfl

/-- **A unit** is scanned without finding anything. -/
theorem startCodes_append {nal : Bytes} (h : WellFormed nal) (rest : Bytes) (i : ℕ) :
    startCodes i (nal ++ rest) = startCodes (i + nal.length) rest := by
  induction nal generalizing i with
  | nil => rfl
  | cons a nal ih =>
    have hhead : ∀ c, c = 0 ∨ c = 1 → ∀ more, a :: (nal ++ rest) ≠ 0 :: 0 :: c :: more :=
      fun _ hc _ ↦ h.not_startCode hc
    rw [List.cons_append, startCodes_cons hhead]
    by_cases hnil : nal = []
    · rw [hnil]
      rfl
    · rw [ih (h.tail hnil), List.length_cons, Nat.add_assoc, Nat.add_comm 1]

/-- **A start code** is found where it begins. -/
theorem startCodes_startCode (long : Bool) {rest : Bytes} (h : rest ≠ []) (i : ℕ) :
    startCodes i (startCode long ++ rest) =
      (i, (startCode long).length) :: startCodes (i + (startCode long).length) rest := by
  obtain ⟨d, rest, rfl⟩ := List.exists_cons_of_ne_nil h
  cases long with
  | true => rfl
  | false => rfl

variable {units : List (Bool × Bytes)}

/-- The scanner goes from one unit to the next. -/
theorem startCodes_annexB_cons {nal : Bytes} (hnal : WellFormed nal) (long : Bool) (i : ℕ) :
    startCodes i (annexB ((long, nal) :: units)) =
      (i, (startCode long).length) ::
        startCodes (i + (startCode long).length + nal.length) (annexB units) := by
  rw [annexB_cons, startCodes_startCode, startCodes_append hnal]
  exact List.append_ne_nil_of_left_ne_nil hnal.ne_nil _

/-- A unit ends where the next start code begins, the last one with the stream. -/
theorem head?_startCodes_annexB (h : ∀ unit ∈ units, WellFormed unit.2) (i : ℕ) :
    ((startCodes i (annexB units)).head?.map Prod.fst).getD (i + (annexB units).length) = i := by
  cases units with
  | nil => rfl
  | cons unit units =>
    rw [startCodes_annexB_cons (h unit List.mem_cons_self)]
    rfl

/-- `unitsBetween` for a start code, with the end of its unit. -/
theorem unitsBetween_cons (data : Bytes) (index len : ℕ) (starts : List (ℕ × ℕ)) :
    unitsBetween data ((index, len) :: starts) =
      (if index + len < (starts.head?.map Prod.fst).getD data.length then
        [(data.take ((starts.head?.map Prod.fst).getD data.length)).drop (index + len)]
      else []) ++ unitsBetween data starts := by
  cases starts with
  | nil => rfl
  | cons next starts => rfl

/-- The units between the start codes, when some bytes come before. -/
theorem unitsBetween_annexB (h : ∀ unit ∈ units, WellFormed unit.2) (before : Bytes) :
    unitsBetween (before ++ annexB units) (startCodes before.length (annexB units)) =
      units.map Prod.snd := by
  induction units generalizing before with
  | nil => rfl
  | cons unit units ih =>
    obtain ⟨long, nal⟩ := unit
    have hnal : WellFormed nal := h (long, nal) List.mem_cons_self
    have hunits : ∀ unit ∈ units, WellFormed unit.2 :=
      fun unit hu ↦ h unit (List.mem_cons_of_mem _ hu)
    have hdata : before ++ annexB ((long, nal) :: units) =
        before ++ startCode long ++ nal ++ annexB units := by
      rw [annexB_cons, List.append_assoc, List.append_assoc]
    have hstart : (before ++ startCode long).length = before.length + (startCode long).length :=
      List.length_append
    have hstop : (before ++ startCode long ++ nal).length =
        before.length + (startCode long).length + nal.length := by
      rw [List.length_append, hstart]
    have hend := head?_startCodes_annexB hunits (before ++ startCode long ++ nal).length
    rw [← List.length_append] at hend
    have hunit : (before ++ startCode long ++ nal ++ annexB units).take
        (before ++ startCode long ++ nal).length = before ++ startCode long ++ nal :=
      List.take_left
    have hpos : 0 < nal.length := List.length_pos_iff.mpr hnal.ne_nil
    rw [startCodes_annexB_cons hnal, hdata, ← hstop, unitsBetween_cons, hend,
      ih hunits (before ++ startCode long ++ nal), hunit, ← hstart, List.drop_left,
      if_pos (by omega)]
    rfl

/-- The length of a unit as the viewer writes it. -/
theorem bigEndian_eq (length n : ℕ) : bigEndian length n = Wire.bigEndian n length := by
  induction n with
  | zero => rfl
  | succ n ih =>
    rw [bigEndian, Wire.bigEndian, ih, Nat.shiftRight_eq_div_pow, Nat.pow_mul]

/-- **Annex B to AVCC**: whatever start codes of three or four bytes the units have, the viewer
takes out exactly these units, and gives each its length. -/
theorem annexB_to_avcc (h : ∀ unit ∈ units, WellFormed unit.2) :
    extractAnnexBNALUnits (annexB units) = units.map Prod.snd ∧
      annexBAccessUnitToAVCC (annexB units) = avcc (units.map Prod.snd) := by
  have hunits : extractAnnexBNALUnits (annexB units) = units.map Prod.snd :=
    unitsBetween_annexB h []
  refine ⟨hunits, ?_⟩
  rw [annexBAccessUnitToAVCC, hunits, avcc]
  simp only [bigEndian_eq]

/-- Parameter sets and a slice of one byte, behind start codes of both lengths. -/
theorem annexB_to_avcc_three :
    annexBAccessUnitToAVCC [0, 0, 0, 1, 0x67, 0, 0, 0, 1, 0x68, 1, 0, 0, 1, 0x65] =
      [0, 0, 0, 1, 0x67, 0, 0, 0, 2, 0x68, 1, 0, 0, 0, 1, 0x65] := by
  refine (@annexB_to_avcc [(true, [0x67]), (true, [0x68, 1]), (false, [0x65])] ?_).2
  have hshort : ∀ nal : Bytes, nal ≠ [] → nal.length < 3 → nal.getLast? ≠ some 0 → WellFormed nal :=
    fun nal hne hlt hlast ↦ ⟨hne, fun c _ hin ↦ Nat.not_le.mpr hlt hin.length_le, hlast⟩
  intro unit hu
  obtain rfl | rfl | rfl : unit = _ ∨ unit = _ ∨ unit = _ := by simpa using hu
  · exact hshort _ (by decide) (by decide) (by decide)
  · exact hshort _ (by decide) (by decide) (by decide)
  · exact hshort _ (by decide) (by decide) (by decide)

end AllRelay.Browser
