import AllRelay.Hub.State
import AllRelay.Library.ChunkedReader
import AllRelay.Library.Lacing

/-!
# The Ogg demuxer

`audio/ogg.go`. A page of an Ogg stream has a header of 27 bytes, the lengths of its segments, and
the segments. `OggDemuxer` reads a page at a time and hands out the packets that end in it.

It carries nothing from one page to the next, so it hands out the packets of a stream exactly if no
packet goes on from one page to another and no page without segments precedes one with some
(`demultiplexes_iff`).
-/

open ChunkedReader

namespace AllRelay.Ogg

/-! ### The demuxer -/

/-- `oggPageHeaderSize`. -/
def oggPageHeaderSize : ℕ := 27

/-- "OggS". -/
def syncPattern : Bytes := [79, 103, 103, 83]

/-- What `readPage` fails with. -/
inductive OggError where
  /-- What `io.ReadFull` fails with on the header. -/
  | header (e : ChunkedReader.ReadError)
  /-- "ogg sync lost: expected OggS, got %02x". -/
  | syncLost (got : Bytes)
  /-- "ogg segment table: %w". -/
  | segmentTable (e : ChunkedReader.ReadError)
  /-- "ogg packet data: %w". -/
  | packetData (e : ChunkedReader.ReadError)
deriving DecidableEq, Repr

/-- `io.EOF`. -/
abbrev OggError.eof : OggError := .header .eof

/-- `packets`, `packetStart` and `packetLen` in `readPage`. -/
structure Split where
  packets : List Bytes
  packetStart : ℕ
  packetLen : ℕ

/-- One round of the loop of `readPage` over the segments. -/
def Split.segment (packetData : Bytes) (s : Split) (seg : UInt8) : Split :=
  let packetLen := s.packetLen + seg.toNat
  if seg < 255 then
    { packets := s.packets ++ [(packetData.drop s.packetStart).take packetLen]
      packetStart := s.packetStart + packetLen
      packetLen := 0 }
  else { s with packetLen }

/-- Fill a buffer of `n` bytes, if it has any. -/
def readBuffer (n : ℕ) (r : Reader) : Except ChunkedReader.ReadError (Bytes × Reader) :=
  if 0 < n then readFull n r else .ok ([], r)

/-- `readPage`: the raw page and its packets, and what is left of the stream. A read that fails
leaves nothing of it. -/
def readPage (r : Reader) : Except OggError (Bytes × List Bytes) × Reader :=
  match readFull oggPageHeaderSize r with
  | .error e => (.error (.header e), [])
  | .ok (header, r) =>
    if header.take 4 ≠ syncPattern then (.error (.syncLost (header.take 4)), r)
    else
      let numSegments := (header.getD 26 0).toNat
      match readBuffer numSegments r with
      | .error e => (.error (.segmentTable e), [])
      | .ok (segTable, r) =>
        let totalDataLen := segTable.foldl (fun total seg ↦ total + seg.toNat) 0
        match readBuffer totalDataLen r with
        | .error e => (.error (.packetData e), [])
        | .ok (packetData, r) =>
          let rawPage := header ++ segTable ++ packetData
          (.ok (rawPage, (segTable.foldl (Split.segment packetData) ⟨[], 0, 0⟩).packets), r)

/-- `OggDemuxer`. -/
structure OggDemuxer where
  /-- The stream. -/
  r : Reader
  /-- The packets that were read and not yet handed out. -/
  packets : List Bytes

/-- `NewOggDemuxer`. -/
def newOggDemuxer (r : Reader) : OggDemuxer := ⟨r, []⟩

namespace OggDemuxer

/-- `NextPacket`. -/
def nextPacket (d : OggDemuxer) : Except OggError Bytes × OggDemuxer :=
  match d.packets with
  | pkt :: packets => (.ok pkt, { d with packets })
  | [] =>
    match readPage d.r with
    | (.error e, r) => (.error e, { d with r })
    | (.ok (_, []), r) => (.error .eof, { d with r })
    | (.ok (_, pkt :: packets), r) => (.ok pkt, ⟨r, packets⟩)

/-- What `n` calls of `NextPacket` return. -/
def calls : ℕ → OggDemuxer → List (Except OggError Bytes)
  | 0, _ => []
  | n + 1, d => d.nextPacket.1 :: calls n d.nextPacket.2

/-- The calls return these packets, in order, and then the end of the stream. -/
def Returns (d : OggDemuxer) (packets : List Bytes) : Prop :=
  d.calls (packets.length + 1) = packets.map .ok ++ [.error .eof]

end OggDemuxer

/-! ### Pages -/

/-- A page of an Ogg stream. -/
structure Page where
  /-- The header between the sync pattern and the number of segments: version, flags, granule
  position, serial number, sequence number and checksum. -/
  fields : Bytes
  /-- The segments. -/
  segments : List Bytes
  length_fields : fields.length = 22
  length_segments : segments.length ≤ 255
  length_le : ∀ s ∈ segments, s.length ≤ 255

/-- The lengths of some segments, a byte each. -/
def lacingValues (segments : List Bytes) : Bytes :=
  segments.map fun s ↦ UInt8.ofNat s.length

/-- The header of a page. -/
def Page.header (page : Page) : Bytes :=
  syncPattern ++ page.fields ++ [UInt8.ofNat page.segments.length]

/-- The bytes of a page. -/
def Page.render (page : Page) : Bytes :=
  page.header ++ lacingValues page.segments ++ page.segments.flatten

/-- The bytes of a stream of pages. -/
def render (pages : List Page) : Bytes :=
  pages.flatMap Page.render

/-- **The pages of some packets**: every packet is cut into segments of 255 bytes and a shorter
one, and these are grouped into pages, as many to each as it likes. -/
def IsPaging (packets : List Bytes) (pages : List Page) : Prop :=
  pages.flatMap Page.segments = packets.flatMap (Lacing.segments 255)

/-- The pages with segments come first, and a packet ends with each of them. -/
def Unsplit (pages : List Page) : Prop :=
  ∃ full empty, pages = full ++ empty ∧
    (∀ page ∈ full, page.segments ≠ [] ∧ Lacing.Closed 255 page.segments) ∧
      ∀ page ∈ empty, page.segments = []

variable {page : Page} {pages : List Page} {packets packets' : List Bytes} {segments : List Bytes}
  {r : Reader} {d : OggDemuxer} {n : ℕ} {bytes rest : Bytes}

/-! ### One page -/

theorem readBuffer_of_append (hr : r.flatten = bytes ++ rest) :
    ∃ r', readBuffer bytes.length r = .ok (bytes, r') ∧ r'.flatten = rest := by
  rw [readBuffer]
  split
  · exact readFull_of_append hr
  · rename_i hzero
    have hnil : bytes = [] := List.eq_nil_of_length_eq_zero (by omega)
    exact ⟨r, by rw [hnil], by rw [hr, hnil, List.nil_append]⟩

theorem toNat_ofNat_of_le (h : n ≤ 255) : (UInt8.ofNat n).toNat = n :=
  UInt8.toNat_ofNat_of_lt' (Nat.lt_succ_of_le h)

/-- The length of the data of a page. -/
theorem foldl_lacingValues (hle : ∀ s ∈ segments, s.length ≤ 255) (total : ℕ) :
    (lacingValues segments).foldl (fun total seg ↦ total + seg.toNat) total =
      total + segments.flatten.length := by
  induction segments generalizing total with
  | nil => rfl
  | cons s segments ih =>
    obtain ⟨hs, hle⟩ := List.forall_mem_cons.1 hle
    rw [lacingValues, List.map_cons, List.foldl_cons, toNat_ofNat_of_le hs, ← lacingValues, ih hle,
      List.flatten_cons, List.length_append, Nat.add_assoc]

/-- **The loop over the segments** puts the packets together that end in the page. -/
theorem foldl_segment (hle : ∀ s ∈ segments, s.length ≤ 255) (before acc rest : Bytes)
    (packets : List Bytes) :
    ((lacingValues segments).foldl (Split.segment (before ++ acc ++ segments.flatten ++ rest))
        ⟨packets, before.length, acc.length⟩).packets =
      packets ++ Lacing.completedFrom 255 acc segments := by
  induction segments generalizing before acc packets with
  | nil => exact (List.append_nil _).symm
  | cons s segments ih =>
    obtain ⟨hs, hle⟩ := List.forall_mem_cons.1 hle
    have hlen := toNat_ofNat_of_le hs
    rw [lacingValues, List.map_cons, List.foldl_cons, ← lacingValues, Split.segment, hlen,
      Lacing.completedFrom]
    have hlt : UInt8.ofNat s.length < 255 ↔ s.length < 255 := by
      rw [UInt8.lt_iff_toNat_lt, hlen]
      rfl
    by_cases h : s.length < 255
    · -- the packet ends here: the next one begins behind it
      have hdata : before ++ acc ++ (s :: segments).flatten ++ rest =
          (before ++ acc ++ s) ++ [] ++ segments.flatten ++ rest := by simp
      have hslice : ((before ++ acc ++ (s :: segments).flatten ++ rest).drop before.length).take
          (acc.length + s.length) = acc ++ s := by
        have happ : before ++ acc ++ (s :: segments).flatten ++ rest =
            before ++ (acc ++ s ++ (segments.flatten ++ rest)) := by simp
        rw [happ, List.drop_left, ← List.length_append, List.take_left]
      have hstart : before.length + (acc.length + s.length) = (before ++ acc ++ s).length := by
        simp
      rw [if_pos (hlt.2 h), if_pos h, hslice, hstart, hdata]
      exact (ih hle (before ++ acc ++ s) [] _).trans (List.append_assoc _ _ _)
    · -- it goes on
      have hdata : before ++ acc ++ (s :: segments).flatten ++ rest =
          before ++ (acc ++ s) ++ segments.flatten ++ rest := by simp
      rw [if_neg (mt hlt.1 h), if_neg h, hdata, ← List.length_append]
      exact ih hle before (acc ++ s) packets

theorem Page.length_header (page : Page) : page.header.length = oggPageHeaderSize := by
  rw [header, List.length_append, List.length_append, page.length_fields]
  rfl

/-- The last byte of a header is the number of segments. -/
theorem Page.numSegments_header (page : Page) :
    (page.header.getD 26 0).toNat = page.segments.length := by
  have hlen : (syncPattern ++ page.fields).length = 26 := by
    rw [List.length_append, page.length_fields]
    rfl
  have hget : page.header.getD 26 0 = UInt8.ofNat page.segments.length := by
    rw [header, List.getD_eq_getElem?_getD, List.getElem?_append_right (Nat.le_of_eq hlen), hlen]
    rfl
  rw [hget, toNat_ofNat_of_le page.length_segments]

/-- **One page**: it is read whole, and gives the packets that end in it. -/
theorem readPage_render (hr : r.flatten = page.render ++ rest) :
    ∃ r', readPage r = (.ok (page.render, Lacing.completed 255 page.segments), r') ∧
      r'.flatten = rest := by
  have htable : (lacingValues page.segments).length = page.segments.length := List.length_map _
  rw [Page.render, List.append_assoc, List.append_assoc] at hr
  obtain ⟨r₁, hread₁, hr₁⟩ := readFull_of_append hr
  obtain ⟨r₂, hread₂, hr₂⟩ := readBuffer_of_append hr₁
  obtain ⟨r₃, hread₃, hr₃⟩ := readBuffer_of_append hr₂
  have hsync : page.header.take 4 = syncPattern := rfl
  refine ⟨r₃, ?_, hr₃⟩
  have hloop := foldl_segment page.length_le [] [] [] []
  rw [htable] at hread₂
  rw [readPage, ← page.length_header, hread₁]
  simp only [hsync, ne_eq, not_true_eq_false, if_false, page.numSegments_header, hread₂,
    foldl_lacingValues page.length_le, Nat.zero_add, hread₃]
  simp only [List.nil_append, List.append_nil, List.length_nil] at hloop
  rw [hloop]
  rfl

theorem readPage_nil (hr : r.flatten = []) : readPage r = (.error .eof, []) := by
  rw [readPage, readFull_of_lt (by rw [hr]; decide), if_pos hr]

/-! ### The calls -/

/-- What the demuxer makes of some pages: the packets that end in each of them, up to the first page
in which none ends. -/
def delivered : List Page → List Bytes
  | [] => []
  | page :: pages =>
    let completed := Lacing.completed 255 page.segments
    if completed = [] then [] else completed ++ delivered pages

namespace OggDemuxer

/-- Packets in the queue are handed out first. -/
theorem calls_queue (n : ℕ) (packets : List Bytes) (r : Reader) :
    calls (packets.length + n) ⟨r, packets⟩ = packets.map .ok ++ calls n ⟨r, []⟩ := by
  induction packets with
  | nil => rw [List.length_nil, Nat.zero_add, List.map_nil, List.nil_append]
  | cons pkt packets ih =>
    rw [List.length_cons, Nat.add_right_comm, calls, List.map_cons, List.cons_append, ← ih]
    rfl

/-- **A run**: over any pages, the calls return what the demuxer makes of them. -/
theorem returns_delivered (hr : r.flatten = render pages) :
    (newOggDemuxer r).Returns (delivered pages) := by
  induction pages generalizing r with
  | nil =>
    show [(nextPacket ⟨r, []⟩).1] = _
    rw [nextPacket]
    simp only [readPage_nil hr]
    rfl
  | cons page pages ih =>
    have hpages : r.flatten = page.render ++ render pages := hr
    obtain ⟨r', hread, hr'⟩ := readPage_render hpages
    rw [Returns, delivered]
    cases hcompleted : Lacing.completed 255 page.segments with
    | nil =>
      show [(nextPacket ⟨r, []⟩).1] = _
      rw [nextPacket]
      simp only [hread, hcompleted]
      rfl
    | cons pkt packets =>
      have hnext : nextPacket ⟨r, []⟩ = (.ok pkt, ⟨r', packets⟩) := by
        rw [nextPacket]
        simp only [hread, hcompleted]
      have hrest := ih hr'
      rw [Returns, newOggDemuxer] at hrest
      rw [if_neg (List.cons_ne_nil _ _), List.length_append, List.length_cons, newOggDemuxer,
        Nat.add_assoc, Nat.add_right_comm, calls, hnext, calls_queue, hrest]
      simp

/-- The calls return one list of packets only. -/
theorem Returns.unique (h : d.Returns packets) (h' : d.Returns packets') : packets = packets' := by
  induction packets generalizing d packets' with
  | nil =>
    cases packets' with
    | nil => rfl
    | cons pkt' packets' =>
      have hhead := (List.cons.inj h).1.symm.trans (List.cons.inj h').1
      cases hhead
  | cons pkt packets ih =>
    cases packets' with
    | nil =>
      have hhead := (List.cons.inj h).1.symm.trans (List.cons.inj h').1
      cases hhead
    | cons pkt' packets' =>
      have hhead := (List.cons.inj h).1.symm.trans (List.cons.inj h').1
      have htail : packets = packets' := ih (List.cons.inj h).2 (List.cons.inj h').2
      rw [Except.ok.inj hhead, htail]

end OggDemuxer

/-! ### The pages that it can read -/

/-- Pages that no packet crosses give all packets. -/
theorem Unsplit.delivered_eq (h : Unsplit pages) :
    delivered pages = Lacing.completed 255 (pages.flatMap Page.segments) := by
  obtain ⟨full, empty, rfl, hfull, hempty⟩ := h
  induction full with
  | nil =>
    have hnil : empty.flatMap Page.segments = [] := List.flatMap_eq_nil_iff.2 hempty
    rw [List.nil_append, hnil]
    cases empty with
    | nil => rfl
    | cons page empty =>
      rw [delivered, hempty page List.mem_cons_self]
      rfl
  | cons page full ih =>
    obtain ⟨⟨hne, hclosed⟩, hfull⟩ := List.forall_mem_cons.1 hfull
    have hsome : Lacing.completed 255 page.segments ≠ [] :=
      Lacing.completedFrom_ne_nil hclosed hne []
    rw [List.cons_append, delivered, if_neg hsome, ih hfull, List.flatMap_cons,
      Lacing.completed_append hclosed]

theorem size_delivered_le (pages : List Page) :
    Lacing.size (delivered pages) ≤ Lacing.load 255 (pages.flatMap Page.segments) := by
  induction pages with
  | nil => exact Nat.le_refl 0
  | cons page pages ih =>
    have hpage := Lacing.size_completed_le (m := 255) (by decide) page.segments
    rw [delivered, List.flatMap_cons, Lacing.load_append]
    split
    · exact Nat.zero_le _
    · rw [Lacing.size_append]
      exact Nat.add_le_add hpage ih

/-- Pages that give everything they hold are not crossed by a packet. -/
theorem unsplit_of_load_le
    (h : Lacing.load 255 (pages.flatMap Page.segments) ≤ Lacing.size (delivered pages)) :
    Unsplit pages := by
  induction pages with
  | nil => exact ⟨[], [], rfl, List.forall_mem_nil _, List.forall_mem_nil _⟩
  | cons page pages ih =>
    rw [delivered] at h
    split at h
    · -- nothing was handed out, so nothing is there
      have hnil : (page :: pages).flatMap Page.segments = [] := by
        by_contra hne
        exact Nat.not_le.2 (Lacing.load_pos (m := 255) (by decide) hne) h
      exact ⟨[], page :: pages, rfl, List.forall_mem_nil _, List.flatMap_eq_nil_iff.1 hnil⟩
    · rename_i hcompleted
      have hrest := size_delivered_le pages
      rw [List.flatMap_cons, Lacing.load_append, Lacing.size_append] at h
      have hclosed : Lacing.Closed 255 page.segments := by
        by_contra hopen
        have := Lacing.size_completed_lt (m := 255) (by decide) hopen
        omega
      have hpage := Lacing.size_completed_le (m := 255) (by decide) page.segments
      have hne : page.segments ≠ [] := by
        intro hnil
        rw [hnil] at hcompleted
        exact hcompleted rfl
      obtain ⟨full, empty, rfl, hfull, hempty⟩ := ih (by omega)
      exact ⟨page :: full, empty, rfl, List.forall_mem_cons.2 ⟨⟨hne, hclosed⟩, hfull⟩, hempty⟩

/-- **Demultiplexing**: whatever the chunks in which the pages of some packets arrive, the calls
return these packets and then the end of the stream if and only if no packet goes on from one page
to another and no page without segments precedes one with some. -/
theorem demultiplexes_iff (hpaging : IsPaging packets pages) (hr : r.flatten = render pages) :
    (newOggDemuxer r).Returns packets ↔ Unsplit pages := by
  have hdelivered := OggDemuxer.returns_delivered hr
  constructor
  · intro h
    have heq : packets = delivered pages := h.unique hdelivered
    have hload : Lacing.load 255 (pages.flatMap Page.segments) = Lacing.size (delivered pages) := by
      rw [hpaging, Lacing.load_flatMap_segments (by decide), heq]
    exact unsplit_of_load_le (Nat.le_of_eq hload)
  · intro h
    rw [h.delivered_eq, hpaging, Lacing.completed_flatMap_segments (by decide)] at hdelivered
    exact hdelivered

/-- A page with two packets, of 2 and of 300 bytes. -/
def wholePage : Page where
  fields := [0, 6, 128, 7, 0, 0, 0, 0, 0, 0, 1, 0, 0, 0, 0, 0, 0, 0, 21, 14, 247, 124]
  segments := [[1, 2], List.replicate 255 7, List.replicate 45 7]
  length_fields := rfl
  length_segments := by decide
  length_le := by decide +kernel

/-- The packets of the page are handed out. -/
theorem demultiplexes_iff_wholePage :
    (newOggDemuxer [wholePage.render]).Returns [[1, 2], List.replicate 300 7] := by
  have hpaging : IsPaging [[1, 2], List.replicate 300 7] [wholePage] := by
    rw [IsPaging]
    decide +kernel
  have hunsplit : Unsplit [wholePage] :=
    ⟨[wholePage], [], rfl, by simp only [List.forall_mem_singleton]; decide, List.forall_mem_nil _⟩
  exact (demultiplexes_iff hpaging rfl).2 hunsplit

/-- The same packets on two pages, the second packet begun on the first of them. -/
def splitPages : List Page :=
  [{ fields := [0, 2, 192, 3, 0, 0, 0, 0, 0, 0, 1, 0, 0, 0, 0, 0, 0, 0, 158, 175, 55, 196]
     segments := [[1, 2], List.replicate 255 7]
     length_fields := rfl
     length_segments := by decide
     length_le := by decide +kernel },
    { fields := [0, 5, 128, 7, 0, 0, 0, 0, 0, 0, 1, 0, 0, 0, 1, 0, 0, 0, 39, 180, 35, 247]
      segments := [List.replicate 45 7]
      length_fields := rfl
      length_segments := by decide
      length_le := by decide +kernel }]

/-- The demuxer hands out the last 45 bytes of the second packet for the packet. -/
theorem not_demultiplexes : ¬∀ (packets : List Bytes) (pages : List Page) (r : Reader),
    IsPaging packets pages → r.flatten = render pages → (newOggDemuxer r).Returns packets := by
  intro h
  have hpaging : IsPaging [[1, 2], List.replicate 300 7] splitPages := by
    rw [IsPaging]
    decide +kernel
  have hreturns := h _ splitPages [render splitPages] hpaging (List.append_nil _)
  have hdelivered : delivered splitPages = [[1, 2], List.replicate 45 7] := by decide +kernel
  have heq := hreturns.unique (OggDemuxer.returns_delivered (List.append_nil _))
  rw [hdelivered] at heq
  have hlen := congrArg Lacing.size heq
  revert hlen
  decide +kernel

end AllRelay.Ogg
