import AllRelay.Media.Packet

/-!
# Dispatch

`Demuxer.Run` hands each packet to the handler of its stream. A handler may fail, and the demuxer
goes on; a packet of a stream without a handler is dropped. Whatever the bytes are and however they
arrive, the handlers get the whole packets in front, and `Run` tells apart what it stopped on
(`run_delivers`): the end of the stream between two packets is no error, everything else is.
-/

open ChunkedReader

namespace AllRelay.Media

namespace Demuxer

variable {σ ε : Type*}

/-- `StreamHandler`, with what the handlers keep: a handler changes it and may return an error. -/
abbrev StreamHandler (σ ε : Type*) := Packet → σ → σ × Option ε

/-- What `Run` returns: `io.EOF` is no error. -/
def returned : DemuxError → Option DemuxError
  | .eof => none
  | e => some e

/-- The dispatch of one packet. -/
def dispatch (handlers : UInt32 → Option (StreamHandler σ ε)) (s : σ) (p : Packet) : σ :=
  match handlers p.header.streamID with
  | none => s
  | some handler =>
    -- The error of the handler goes to stderr.
    (handler p s).1

/-- The first `n` rounds of `Run`. -/
def dispatchRounds (handlers : UInt32 → Option (StreamHandler σ ε)) :
    ℕ → Reader → σ → σ × Option DemuxError
  | 0, _, s => (s, none)
  | n + 1, r, s =>
    match readPacket r with
    | .error e => (s, returned e)
    | .ok (p, r) => dispatchRounds handlers n r (dispatch handlers s p)

/-- `Run`: every packet takes at least one byte, so the stream ends in these rounds. -/
def dispatchRun (handlers : UInt32 → Option (StreamHandler σ ε)) (r : Reader) (s : σ) :
    σ × Option DemuxError :=
  dispatchRounds handlers (r.flatten.length + 1) r s

/-- What is wrong with bytes that do not start with a whole packet, if they are not empty: the
header is cut, the payload is too large, or the payload is cut, maybe before its first byte. -/
def ending (rest : Bytes) : Option DemuxError :=
  if rest = [] then none
  else if rest.length < headerSize then some .header
  else
    let size := (Header.ofBytes (rest.take headerSize)).payloadSize
    if maxPayloadSize < size.toNat then some (.payloadTooLarge size)
    else some (.payload (if rest.length = headerSize then .eof else .unexpectedEOF))

theorem ending_eq_none_iff {rest : Bytes} : ending rest = none ↔ rest = [] := by
  constructor
  · intro h
    by_contra hne
    rw [ending, if_neg hne] at h
    dsimp only at h
    split_ifs at h
  · intro h
    rw [h]
    rfl

end Demuxer

/-! ### Whole packets in front of a stream -/

variable {bytes rest stream : Bytes} {p : Packet}

/-- The whole packet in front of a stream is determined by the stream. -/
theorem Whole.eq_of_prefix (h : Whole bytes p) (hstream : bytes <+: stream) :
    p.header = .ofBytes (stream.take headerSize) ∧
      bytes = stream.take (headerSize + p.header.payloadSize.toNat) := by
  obtain ⟨rest, rfl⟩ := hstream
  have hle : headerSize ≤ bytes.length := by
    have := h.length
    omega
  constructor
  · rw [List.take_append_of_le_length hle]
    exact h.header
  · rw [← h.length, List.take_left]

/-- A stream has one whole packet in front at most. -/
theorem Whole.unique {bytes' : Bytes} {p' : Packet} (h : Whole bytes p) (h' : Whole bytes' p')
    (hstream : bytes <+: stream) (hstream' : bytes' <+: stream) : bytes = bytes' ∧ p = p' := by
  obtain ⟨hheader, hbytes⟩ := h.eq_of_prefix hstream
  obtain ⟨hheader', hbytes'⟩ := h'.eq_of_prefix hstream'
  have hsame : p.header = p'.header := hheader.trans hheader'.symm
  have hbytes : bytes = bytes' := by
    rw [hbytes, hsame]
    exact hbytes'.symm
  refine ⟨hbytes, ?_⟩
  have hpayload : p.payload = p'.payload := by
    rw [h.payload, h'.payload, hbytes]
  calc p = ⟨p.header, p.payload⟩ := rfl
    _ = ⟨p'.header, p'.payload⟩ := by rw [hsame, hpayload]

/-- The header in front of a stream. -/
def frontHeader (stream : Bytes) : Header :=
  .ofBytes (stream.take headerSize)

/-- A whole packet in front of a stream has the header in front of it, and fits. -/
theorem Whole.fits (h : Whole bytes p) (hstream : bytes <+: stream) :
    (frontHeader stream).payloadSize.toNat ≤ maxPayloadSize ∧
      headerSize + (frontHeader stream).payloadSize.toNat ≤ stream.length := by
  have hheader : p.header = frontHeader stream := (h.eq_of_prefix hstream).1
  have hlength := hstream.length_le
  rw [h.length, hheader] at hlength
  exact ⟨hheader ▸ h.size, hlength⟩

/-- A stream that is long enough has a whole packet in front. -/
theorem exists_whole (hsize : (frontHeader stream).payloadSize.toNat ≤ maxPayloadSize)
    (hlong : headerSize + (frontHeader stream).payloadSize.toNat ≤ stream.length) :
    ∃ bytes p rest, stream = bytes ++ rest ∧ Whole bytes p := by
  have hlength := List.length_take_of_le hlong
  refine ⟨_, ⟨frontHeader stream, (stream.take _).drop headerSize⟩, _,
    (List.take_append_drop (headerSize + (frontHeader stream).payloadSize.toNat) stream).symm,
    ?_, hlength, rfl, hsize⟩
  rw [List.take_take, Nat.min_eq_left (Nat.le_add_right _ _)]
  rfl

/-- A stream that has a header in front. -/
theorem readHeader_of_le {r : Reader} (hlong : headerSize ≤ r.flatten.length) :
    ∃ r', readHeader r = .ok (frontHeader r.flatten, r') ∧
      r.flatten.length = headerSize + r'.flatten.length := by
  obtain ⟨r', hread, hr'⟩ := readFull_of_le hlong
  refine ⟨r', by rw [readHeader, hread, frontHeader], ?_⟩
  rw [hr', List.length_drop]
  omega

/-- A payload that is too large is not read. -/
theorem readPacket_tooLarge {r : Reader} (hlong : headerSize ≤ r.flatten.length)
    (hlarge : maxPayloadSize < (frontHeader r.flatten).payloadSize.toNat) :
    readPacket r = .error (.payloadTooLarge (frontHeader r.flatten).payloadSize) := by
  obtain ⟨r', hread, -⟩ := readHeader_of_le hlong
  have hzero : (frontHeader r.flatten).payloadSize ≠ 0 := by
    intro hzero
    rw [hzero] at hlarge
    exact absurd hlarge (by decide)
  rw [readPacket, hread]
  simp only [readPayload, if_neg hzero, if_pos hlarge]

/-- A stream that ends inside a payload. -/
theorem readPacket_cut {r : Reader} (hlong : headerSize ≤ r.flatten.length)
    (hsize : (frontHeader r.flatten).payloadSize.toNat ≤ maxPayloadSize)
    (hcut : r.flatten.length < headerSize + (frontHeader r.flatten).payloadSize.toNat) :
    readPacket r =
      .error (.payload (if r.flatten.length = headerSize then .eof else .unexpectedEOF)) := by
  obtain ⟨r', hread, hlength⟩ := readHeader_of_le hlong
  have hzero : (frontHeader r.flatten).payloadSize ≠ 0 := by
    intro hzero
    rw [hzero] at hcut
    exact absurd hlong (Nat.not_le.2 hcut)
  have hcut' : r'.flatten.length < (frontHeader r.flatten).payloadSize.toNat := by omega
  have hend : (r'.flatten = []) = (r.flatten.length = headerSize) := by
    rw [hlength, ← List.length_eq_zero_iff]
    exact propext ⟨fun h ↦ by omega, fun h ↦ by omega⟩
  rw [readPacket, hread]
  simp only [readPayload, if_neg hzero, if_neg (Nat.not_lt.2 hsize), readFull_of_lt hcut', hend]

/-- **What a round does**: it reads the whole packet in front of the stream, or there is none and it
says why. -/
theorem readPacket_cases (r : Reader) :
    (∃ bytes p r', r.flatten = bytes ++ r'.flatten ∧ Whole bytes p ∧ readPacket r = .ok (p, r')) ∨
      ∃ e, readPacket r = .error e ∧ Demuxer.returned e = Demuxer.ending r.flatten ∧
        ∀ bytes p, Whole bytes p → ¬bytes <+: r.flatten := by
  obtain hshort | hlong := Nat.lt_or_ge r.flatten.length headerSize
  · -- The header is cut, or the stream is at its end.
    have hnone : ∀ bytes p, Whole bytes p → ¬bytes <+: r.flatten := by
      intro bytes p h hstream
      have hlength := (h.fits hstream).2
      omega
    refine .inr ?_
    by_cases hnil : r.flatten = []
    · exact ⟨.eof, readPacket_nil hnil, by rw [Demuxer.ending, if_pos hnil]; rfl, hnone⟩
    · exact ⟨.header, readPacket_short hnil hshort,
        by rw [Demuxer.ending, if_neg hnil, if_pos hshort]; rfl, hnone⟩
  have hnil : r.flatten ≠ [] := by
    intro hnil
    rw [hnil] at hlong
    exact absurd hlong (by decide)
  have hending : Demuxer.ending r.flatten =
      if maxPayloadSize < (frontHeader r.flatten).payloadSize.toNat then
        some (.payloadTooLarge (frontHeader r.flatten).payloadSize)
      else some (.payload (if r.flatten.length = headerSize then .eof else .unexpectedEOF)) := by
    rw [Demuxer.ending, if_neg hnil, if_neg (Nat.not_lt.2 hlong)]
    rfl
  obtain hlarge | hsize := Nat.lt_or_ge maxPayloadSize (frontHeader r.flatten).payloadSize.toNat
  · refine .inr ⟨_, readPacket_tooLarge hlong hlarge, ?_, fun bytes p h hstream ↦ ?_⟩
    · rw [hending, if_pos hlarge]
      rfl
    · exact absurd (h.fits hstream).1 (Nat.not_le.2 hlarge)
  obtain hcut | hfull := Nat.lt_or_ge r.flatten.length
    (headerSize + (frontHeader r.flatten).payloadSize.toNat)
  · refine .inr ⟨_, readPacket_cut hlong hsize hcut, ?_, fun bytes p h hstream ↦ ?_⟩
    · rw [hending, if_neg (Nat.not_lt.2 hsize)]
      rfl
    · exact absurd (h.fits hstream).2 (Nat.not_le.2 hcut)
  · obtain ⟨bytes, p, rest, hrest, hwhole⟩ := exists_whole hsize hfull
    obtain ⟨r', hread, hr'⟩ := readPacket_of_whole hwhole hrest
    exact .inl ⟨bytes, p, r', by rw [hr', hrest], hwhole, hread⟩

namespace Demuxer

variable {σ ε : Type*}

/-- **The rounds** of a run that has enough of them. -/
theorem dispatchRounds_delivers (handlers : UInt32 → Option (StreamHandler σ ε)) {n : ℕ}
    {r : Reader} (hn : r.flatten.length < n) (s : σ) :
    ∃ bytes rest ps, r.flatten = bytes ++ rest ∧ WholePackets bytes ps ∧
      (∀ bytes' ps', WholePackets bytes' ps' → bytes' <+: r.flatten → ps' <+: ps) ∧
      dispatchRounds handlers n r s = (ps.foldl (dispatch handlers) s, ending rest) := by
  induction n generalizing r s with
  | zero => exact absurd hn (Nat.not_lt_zero _)
  | succ n ih =>
    obtain ⟨first, p, r', hflatten, hfirst, hread⟩ | ⟨e, hread, hending, hnone⟩ :=
      readPacket_cases r
    · have hlength : r'.flatten.length < n := by
        have := readPacket_length hread
        omega
      obtain ⟨bytes, rest, ps, hrest, hps, hmax, hrun⟩ := ih hlength (dispatch handlers s p)
      refine ⟨first ++ bytes, rest, p :: ps, by rw [hflatten, hrest, List.append_assoc],
        .cons hfirst hps, fun bytes' ps' hps' hpre ↦ ?_, by rw [dispatchRounds, hread]; exact hrun⟩
      induction hps' with
      | nil => exact List.nil_prefix
      | @cons first' rest' p' ps' hfirst' hrest' _ =>
        -- The first packets are the same, and then the others follow.
        obtain ⟨rfl, rfl⟩ := hfirst'.unique hfirst ((List.prefix_append _ _).trans hpre)
          ⟨r'.flatten, hflatten.symm⟩
        rw [hflatten, List.prefix_append_right_inj] at hpre
        exact List.cons_prefix_cons.2 ⟨rfl, hmax rest' ps' hrest' hpre⟩
    · refine ⟨[], r.flatten, [], rfl, .nil, fun bytes' ps' hps' hpre ↦ ?_, ?_⟩
      · induction hps' with
        | nil => exact List.nil_prefix
        | @cons first' rest' p' ps' hfirst' _ _ =>
          exact absurd ((List.prefix_append _ _).trans hpre) (hnone first' p' hfirst')
      · rw [dispatchRounds, hread, ← hending]
        rfl

/-- Handlers that keep what they are called with. -/
def record (handlers : UInt32 → Bool) (id : UInt32) : Option (StreamHandler (List Packet) Unit) :=
  if handlers id then some fun p ps ↦ (ps ++ [p], none) else none

/-- `rounds` is what such handlers keep. -/
theorem dispatchRounds_record (handlers : UInt32 → Bool) (n : ℕ) (r : Reader) (ps : List Packet) :
    dispatchRounds (record handlers) n r ps =
      (ps ++ (rounds handlers n r).1, (rounds handlers n r).2) := by
  induction n generalizing r ps with
  | zero => rw [dispatchRounds, rounds, List.append_nil]
  | succ n ih =>
    rw [dispatchRounds, rounds]
    rcases readPacket r with e | ⟨p, r'⟩
    · rcases e with _ | _ | _ | _
      · simp only [returned, List.append_nil]
      · simp only [returned, List.append_nil]
      · simp only [returned, List.append_nil]
      · simp only [returned, List.append_nil]
    · simp only [ih, dispatch, record]
      cases handlers p.header.streamID with
      | true => simp only [if_true, List.append_assoc, List.singleton_append]
      | false => rfl

theorem dispatchRun_record (handlers : UInt32 → Bool) (r : Reader) :
    dispatchRun (record handlers) r [] = run handlers r :=
  dispatchRounds_record handlers _ r []

/-- **Every stream**: the handlers get the longest sequence of whole packets in front of it, in
order, each the handler of its stream, and `Run` returns nil exactly when nothing is left. -/
theorem run_delivers (handlers : UInt32 → Option (StreamHandler σ ε)) (r : Reader) (s : σ) :
    ∃ bytes rest ps, r.flatten = bytes ++ rest ∧ WholePackets bytes ps ∧
      (∀ bytes' ps', WholePackets bytes' ps' → bytes' <+: r.flatten → ps' <+: ps) ∧
      dispatchRun handlers r s = (ps.foldl (dispatch handlers) s, ending rest) ∧
      ((dispatchRun handlers r s).2 = none ↔ rest = []) := by
  obtain ⟨bytes, rest, ps, hflatten, hps, hmax, hrun⟩ :=
    dispatchRounds_delivers handlers (Nat.lt_succ_self r.flatten.length) s
  refine ⟨bytes, rest, ps, hflatten, hps, hmax, hrun, ?_⟩
  rw [dispatchRun, hrun]
  exact ending_eq_none_iff

end Demuxer

end AllRelay.Media
