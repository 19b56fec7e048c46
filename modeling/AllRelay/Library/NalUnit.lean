import AllRelay.Library.Wire

/-!
# NAL units and their two stream formats

An H.264 stream is a sequence of NAL units. In an **Annex B** stream each of them follows a start
code of three or four bytes, which the encoder keeps out of the units (`WellFormed`); in an **AVCC**
stream each follows its length.
-/

namespace NalUnit

/-- The bytes of a unit, which contain no start code and could not run into the next one. -/
structure WellFormed (nal : List UInt8) : Prop where
  ne_nil : nal ≠ []
  /-- Neither 00 00 00 nor 00 00 01 occurs. -/
  clean : ∀ c, c = 0 ∨ c = 1 → ¬[0, 0, c] <:+: nal
  /-- The last byte is not 00. -/
  last : nal.getLast? ≠ some 0

/-- A start code of four bytes or of three. -/
def startCode (long : Bool) : List UInt8 :=
  if long then [0, 0, 0, 1] else [0, 0, 1]

/-- The Annex B stream of some units, with the lengths of their start codes. -/
def annexB (units : List (Bool × List UInt8)) : List UInt8 :=
  units.flatMap fun unit ↦ startCode unit.1 ++ unit.2

/-- The AVCC stream of some units. -/
def avcc (units : List (List UInt8)) : List UInt8 :=
  units.flatMap fun nal ↦ Wire.bigEndian 4 nal.length ++ nal

variable {a : UInt8} {nal rest : List UInt8}

theorem annexB_cons (long : Bool) (nal : List UInt8) (units : List (Bool × List UInt8)) :
    annexB ((long, nal) :: units) = startCode long ++ (nal ++ annexB units) := by
  rw [annexB, List.flatMap_cons, List.append_assoc]
  rfl

/-- The rest of a unit is well-formed too. -/
theorem WellFormed.tail (h : WellFormed (a :: nal)) (hne : nal ≠ []) : WellFormed nal where
  ne_nil := hne
  clean c hc hin := h.clean c hc (hin.trans (List.suffix_cons a nal).isInfix)
  last hlast := h.last (by rw [List.getLast?_cons_of_ne_nil hne, hlast])

/-- **No start code** begins inside a unit, whatever follows it. -/
theorem WellFormed.not_startCode (h : WellFormed nal) {c : UInt8} (hc : c = 0 ∨ c = 1)
    {more : List UInt8} : nal ++ rest ≠ 0 :: 0 :: c :: more := by
  intro heq
  -- a unit of one or two bytes would end in 00, a longer one contains the pattern
  obtain _ | ⟨a, _ | ⟨b, _ | ⟨d, nal⟩⟩⟩ := nal
  · exact h.ne_nil rfl
  · exact h.last (congrArg some (List.cons.inj heq).1)
  · exact h.last (congrArg some (List.cons.inj (List.cons.inj heq).2).1)
  · have hpre : [a, b, d] = [0, 0, c] := congrArg (List.take 3) heq
    have hin : [a, b, d] <:+: a :: b :: d :: nal := (List.prefix_append [a, b, d] nal).isInfix
    exact h.clean c hc (hpre ▸ hin)

end NalUnit
