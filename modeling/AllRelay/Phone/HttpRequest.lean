import AllRelay.Library.CharReader
import AllRelay.Phone.Kotlin

/-!
# Requests to the phone

`handleClient` reads a request as text: lines up to an empty one, then a body of as many characters
as `Content-Length` says. The length of a body is in bytes, though, and a character outside ASCII
has more bytes than UTF-16 code units, so that the reader waits for characters which never come: the
body is handed over exactly when it is ASCII (`body_received_iff`).
-/

namespace AllRelay.PhoneHttp

open Kotlin Lines Utf

/-! ### The handler -/

/-- `MAX_REQUEST_BODY_BYTES`. -/
def maxRequestBodyBytes : ℤ := 8 * 1024

/-- What becomes of a client. -/
inductive Outcome where
  /-- `handleClient` waits for more bytes. -/
  | waiting
  /-- It returns without a response. -/
  | closed
  /-- It responds with status 400 and this error. -/
  | badRequest (error : String)
  /-- It calls `handleRequest`. -/
  | request (method path body : Text)
deriving DecidableEq, Repr

/-- `contentLength` after a header line. -/
def headerLine (contentLength : ℤ) (line : Text) : ℤ :=
  let name := line.takeWhile (· ≠ 0x3A)
  if name.length = line.length ∨ name = [] then contentLength
  else if lowercase (trim isWhitespace name) = ascii "content-length" then
    (toIntOrNull (trim isWhitespace (line.drop (name.length + 1)))).getD 0
  else contentLength

/-- The loop over the header lines, at most `fuel` of them. -/
def readHeaders : ℕ → ℤ → CharReader → Option (ℤ × CharReader)
  | 0, _, _ => none
  | fuel + 1, contentLength, reader => do
    let (line, reader) ← reader.readLine
    match line with
    | none => some (contentLength, reader)
    | some line =>
      if line = [] then some (contentLength, reader)
      else readHeaders fuel (headerLine contentLength line) reader

/-- The loop that reads the body, at most `fuel` times. -/
def readBody (contentLength : ℕ) : ℕ → Text → CharReader → Option Text
  | 0, _, _ => none
  | fuel + 1, chars, reader =>
    if chars.length < contentLength then do
      let (more, reader) ← reader.read (contentLength - chars.length)
      if more = [] then some chars else readBody contentLength fuel (chars ++ more) reader
    else some chars

/-- `handleClient` on a reader, nothing when it waits. -/
def serve (reader : CharReader) : Option Outcome := do
  let (requestLine, reader) ← reader.readLine
  match requestLine with
  | none => some .closed
  | some requestLine =>
    match split 0x20 requestLine with
    | method :: path :: _ =>
      -- a line takes a character at least, and a body as many reads as it has characters
      let (contentLength, reader) ← readHeaders (reader.chunks.flatten.length + 1) 0 reader
      if maxRequestBodyBytes < contentLength then some (.badRequest "Request body too large")
      else
        let body ← readBody contentLength.toNat (contentLength.toNat + 1) [] reader
        some (.request (trim isWhitespace method) (trim isWhitespace path) body)
    | _ => some (.badRequest "Invalid request line")

/-- `handleClient`, with the chunks in which the client sends its bytes. -/
def handleClient (chunks : List (List UInt8)) (closed : Bool) : Outcome :=
  (serve (.ofChunks chunks closed)).getD .waiting

/-! ### Requests -/

/-- A visible ASCII character. -/
def Visible (b : UInt8) : Prop :=
  0x21 ≤ b ∧ b ≤ 0x7E

/-- The text of ASCII bytes. -/
def widen (bytes : List UInt8) : Text :=
  bytes.map (·.toUInt16)

instance (b : UInt8) : Decidable (Visible b) :=
  inferInstanceAs (Decidable (_ ∧ _))

/-- A header whose name is `Content-Length` in any case. -/
def IsContentLength (name : List UInt8) : Prop :=
  lowercase (widen name) = ascii "content-length"

instance (name : List UInt8) : Decidable (IsContentLength name) :=
  inferInstanceAs (Decidable (_ = _))

/-- Digits that denote a number, with blanks around them. -/
def DenotesLength (value : List UInt8) (n : ℕ) : Prop :=
  ∃ before digits behind, value = before ++ digits ++ behind ∧
    (∀ b ∈ before ++ behind, b = 0x20 ∨ b = 0x09) ∧
    digits ≠ [] ∧ (∀ b ∈ digits, 0x30 ≤ b ∧ b ≤ 0x39) ∧
    digits.foldl (fun n b ↦ 10 * n + (b.toNat - 0x30)) 0 = n

/-- A request. -/
structure HttpRequest where
  method : List UInt8
  target : List UInt8
  version : List UInt8
  /-- Names and values. -/
  headers : List (List UInt8 × List UInt8)
  /-- The text of the body. -/
  body : List Char

namespace HttpRequest

/-- The bytes of the body, in UTF-8. -/
def bodyBytes (q : HttpRequest) : List UInt8 :=
  q.body.flatMap String.utf8EncodeChar

/-- The lines of the request. -/
def lines (q : HttpRequest) : List (List UInt8) :=
  (q.method ++ 0x20 :: q.target ++ 0x20 :: q.version) ::
    q.headers.map fun header ↦ header.1 ++ 0x3A :: header.2

/-- The bytes of the request. -/
def bytes (q : HttpRequest) : List UInt8 :=
  q.lines.flatMap (· ++ [0x0D, 0x0A]) ++ [0x0D, 0x0A] ++ q.bodyBytes

/-- A well-formed request, with the length of its body. -/
structure WellFormed (q : HttpRequest) : Prop where
  method : q.method ≠ [] ∧ ∀ b ∈ q.method, Visible b
  target : q.target ≠ [] ∧ ∀ b ∈ q.target, Visible b
  version : ∀ b ∈ q.version, Visible b
  name : ∀ header ∈ q.headers, header.1 ≠ [] ∧ ∀ b ∈ header.1, Visible b ∧ b ≠ 0x3A
  /-- A value may have any bytes but line breaks. -/
  value : ∀ header ∈ q.headers, ∀ b ∈ header.2, b ≠ 0x0D ∧ b ≠ 0x0A
  contentLength : ∀ header ∈ q.headers, IsContentLength header.1 →
    DenotesLength header.2 q.bodyBytes.length
  hasContentLength : q.body ≠ [] → ∃ header ∈ q.headers, IsContentLength header.1
  limit : q.bodyBytes.length ≤ 8192

end HttpRequest

/-! ### Header lines -/

variable {reader : CharReader} {contentLength : ℤ}

/-- **The header lines** are read one by one, up to the empty one. -/
theorem readHeaders_lines {lines : List Text} (hlines : ∀ line ∈ lines, IsLine line ∧ line ≠ [])
    {fuel : ℕ} (hfuel : lines.length < fuel) {rest : Text}
    (h : reader.text = lines.flatMap (· ++ [0x0D, 0x0A]) ++ 0x0D :: 0x0A :: rest) :
    ∃ reader', readHeaders fuel contentLength reader =
        some (lines.foldl headerLine contentLength, reader') ∧
      reader'.text = rest ∧ reader'.closed = reader.closed := by
  induction lines generalizing reader contentLength fuel with
  | nil =>
    obtain ⟨fuel, rfl⟩ : ∃ fuel', fuel = fuel' + 1 := ⟨fuel - 1, by simp at hfuel; omega⟩
    obtain ⟨reader', hread, htext, hclosed⟩ :=
      CharReader.readLine_of_line (fun c hc ↦ by cases hc) h
    refine ⟨reader', ?_, htext, hclosed⟩
    rw [readHeaders, hread]
    rfl
  | cons line lines ih =>
    obtain ⟨fuel, rfl⟩ : ∃ fuel', fuel = fuel' + 1 := ⟨fuel - 1, by simp at hfuel; omega⟩
    obtain ⟨hline, hne⟩ := hlines line List.mem_cons_self
    have htext : reader.text = line ++ 0x0D :: 0x0A ::
        (lines.flatMap (· ++ [0x0D, 0x0A]) ++ 0x0D :: 0x0A :: rest) := by
      rw [h]
      simp
    obtain ⟨reader', hread, htext', hclosed⟩ := CharReader.readLine_of_line hline htext
    obtain ⟨reader'', hrest, htext'', hclosed'⟩ := @ih reader' (headerLine contentLength line)
      (fun l hl ↦ hlines l (List.mem_cons_of_mem line hl)) fuel (Nat.lt_of_succ_lt_succ hfuel)
      htext'
    refine ⟨reader'', ?_, htext'', hclosed'.trans hclosed⟩
    rw [readHeaders, hread, List.foldl_cons]
    simp only [Option.bind_eq_bind, Option.bind_some, if_neg hne]
    exact hrest

theorem trimmed_widen {bytes : List UInt8} (h : ∀ b ∈ bytes, Visible b) :
    Trimmed isWhitespace (widen bytes) := by
  have hall : ∀ c ∈ widen bytes, isWhitespace c = false := fun c hc ↦ by
    obtain ⟨b, hb, rfl⟩ := List.mem_map.mp hc
    obtain ⟨hlo, hhi⟩ := h b hb
    refine isWhitespace_of_visible (UInt16.le_iff_toNat_le.mpr ?_) (UInt16.le_iff_toNat_le.mpr ?_)
    · exact UInt8.toNat_toUInt16 b ▸ hlo
    · exact UInt8.toNat_toUInt16 b ▸ hhi
  exact ⟨fun c hc ↦ hall c (List.mem_of_mem_head? hc), fun c hc ↦ hall c (List.mem_of_getLast? hc)⟩

/-- A header line with a name and a value. -/
theorem headerLine_eq {name : List UInt8} (hne : name ≠ [])
    (hname : ∀ b ∈ name, Visible b ∧ b ≠ 0x3A) (value : Text) :
    headerLine contentLength (widen name ++ 0x3A :: value) =
      if IsContentLength name then (toIntOrNull (trim isWhitespace value)).getD 0
      else contentLength := by
  have hcolon : ∀ c ∈ widen name, decide (c ≠ 0x3A) = true := fun c hc ↦ by
    obtain ⟨b, hb, rfl⟩ := List.mem_map.mp hc
    refine decide_eq_true fun heq ↦ (hname b hb).2 (UInt8.toNat_inj.mp ?_)
    rw [← UInt8.toNat_toUInt16, heq]
    rfl
  have hfield : (widen name ++ 0x3A :: value).takeWhile (· ≠ 0x3A) = widen name := by
    rw [List.takeWhile_append_of_pos hcolon, List.takeWhile_cons_of_neg (by decide),
      List.append_nil]
  have htrim := (trimmed_widen fun b hb ↦ (hname b hb).1).trim_eq
  have hnil : ¬((widen name).length = (widen name ++ 0x3A :: value).length ∨ widen name = []) := by
    rw [List.length_append, List.length_cons]
    rintro (hlen | hnil)
    · omega
    · exact hne (List.map_eq_nil_iff.mp hnil)
  have hdrop : (widen name ++ 0x3A :: value).drop ((widen name).length + 1) = value := by
    rw [List.append_cons, List.drop_left' (by simp)]
  rw [headerLine]
  simp only [hfield, if_neg hnil, htrim, hdrop]
  rfl

/-! ### The length -/

theorem digitOf_digit {b : UInt8} (hlo : 0x30 ≤ b) (hhi : b ≤ 0x39) :
    digitOf b.toUInt16 = some (b.toNat - 0x30) := by
  have hrange : 0x30 ≤ b.toUInt16.toNat ∧ b.toUInt16.toNat ≤ 0x30 + 9 := by
    rw [UInt8.toNat_toUInt16]
    exact ⟨hlo, hhi⟩
  rw [digitOf, decimalZeros, List.findSome?_cons, if_pos hrange, UInt8.toNat_toUInt16]

theorem digitsValue_digits {digits : List UInt8} (h : ∀ b ∈ digits, 0x30 ≤ b ∧ b ≤ 0x39) (n : ℕ) :
    digitsValue n (widen digits) =
      some (digits.foldl (fun n b ↦ 10 * n + (b.toNat - 0x30)) n) := by
  induction digits generalizing n with
  | nil => rfl
  | cons b digits ih =>
    obtain ⟨hlo, hhi⟩ := h b List.mem_cons_self
    rw [widen, List.map_cons, digitsValue, digitOf_digit hlo hhi, List.foldl_cons]
    exact ih (fun d hd ↦ h d (List.mem_cons_of_mem b hd)) _

/-- **The length** that a header denotes is parsed. -/
theorem toIntOrNull_of_denotesLength {value : List UInt8} {n : ℕ} (h : DenotesLength value n)
    (hn : n < 2 ^ 31) : toIntOrNull (trim isWhitespace (widen value)) = some n := by
  obtain ⟨before, digits, behind, rfl, hblank, hne, hdigits, hvalue⟩ := h
  have hwidth : ∀ c ∈ widen before ++ widen behind, isWhitespace c = true := fun c hc ↦ by
    rw [widen, widen, ← List.map_append] at hc
    obtain ⟨b, hb, rfl⟩ := List.mem_map.mp hc
    obtain rfl | rfl := hblank b hb <;> decide
  have htrim : trim isWhitespace (widen (before ++ digits ++ behind)) = widen digits := by
    rw [widen, List.map_append, List.map_append]
    refine trim_append (trimmed_widen fun b hb ↦ ?_) (fun hnil ↦ hne (List.map_eq_nil_iff.mp hnil))
      (fun c hc ↦ hwidth c (List.mem_append_left _ hc))
      fun c hc ↦ hwidth c (List.mem_append_right _ hc)
    exact ⟨UInt8.le_trans (by decide) (hdigits b hb).1, UInt8.le_trans (hdigits b hb).2 (by decide)⟩
  have hparse := digitsValue_digits hdigits 0
  rw [hvalue] at hparse
  rw [htrim]
  cases digits with
  | nil => exact absurd rfl hne
  | cons b digits =>
    have hsign : ¬b.toUInt16 < 0x30 := by
      rw [UInt16.lt_iff_toNat_lt, UInt8.toNat_toUInt16]
      exact Nat.not_lt.mpr (hdigits b List.mem_cons_self).1
    rw [widen, List.map_cons] at hparse ⊢
    rw [toIntOrNull, if_neg hsign, hparse]
    exact if_pos hn

/-! ### The body -/

/-- **A body that is long enough** is read, however many reads it takes. -/
theorem readBody_of_le {n fuel : ℕ} {chars : Text} (hlen : chars.length ≤ n)
    (hfuel : n < fuel + chars.length) (h : n ≤ (chars ++ reader.text).length) :
    readBody n fuel chars reader = some ((chars ++ reader.text).take n) := by
  induction fuel generalizing chars reader with
  | zero => omega
  | succ fuel ih =>
    rw [readBody]
    split
    case isTrue hlt =>
      have hne : reader.text ≠ [] := fun hnil ↦ by
        rw [hnil, List.append_nil] at h
        omega
      obtain ⟨part, reader', hread, hpart, hle, htext, -⟩ :=
        reader.read_of_ne_nil hne (Nat.sub_pos_of_lt hlt)
      have hpos := List.length_pos_iff.mpr hpart
      have hall : chars ++ part ++ reader'.text = chars ++ reader.text := by
        rw [List.append_assoc, htext]
      rw [hread]
      simp only [Option.bind_eq_bind, Option.bind_some, if_neg hpart]
      rw [ih (by rw [List.length_append]; omega) (by rw [List.length_append]; omega)
        (by rw [hall]; exact h), hall]
    case isFalse hge =>
      have heq : n = chars.length := by omega
      rw [heq, List.take_left]

/-- **A body that is too short** is waited for. -/
theorem readBody_of_lt {n fuel : ℕ} {chars : Text} (hopen : reader.closed = false)
    (h : (chars ++ reader.text).length < n) : readBody n fuel chars reader = none := by
  induction fuel generalizing chars reader with
  | zero => rfl
  | succ fuel ih =>
    rw [List.length_append] at h
    rw [readBody, if_pos (by omega)]
    by_cases hnil : reader.text = []
    · rw [CharReader.read_of_nil hnil hopen]
      rfl
    · obtain ⟨part, reader', hread, hpart, -, htext, hclosed⟩ :=
        reader.read_of_ne_nil hnil (show 0 < n - chars.length by omega)
      rw [hread]
      simp only [Option.bind_eq_bind, Option.bind_some, if_neg hpart]
      refine ih (hclosed.trans hopen) ?_
      rw [List.append_assoc, htext, List.length_append]
      exact h

/-! ### Whole requests -/

/-- A character has as many UTF-16 code units as UTF-8 bytes if it is ASCII, and fewer else. -/
theorem length_utf16_cases (c : Char) :
    c.toNat < 0x80 ∧ (utf16 c).length = (String.utf8EncodeChar c).length ∨
      ¬c.toNat < 0x80 ∧ (utf16 c).length < (String.utf8EncodeChar c).length := by
  unfold utf16 String.utf8EncodeChar
  rw [show c.val.toNat = c.toNat from rfl]
  simp only
  split_ifs <;> simp <;> omega

theorem length_utf16_le (chars : List Char) :
    (chars.flatMap utf16).length ≤ (chars.flatMap String.utf8EncodeChar).length ∧
      ((chars.flatMap utf16).length = (chars.flatMap String.utf8EncodeChar).length ↔
        ∀ c ∈ chars, c.toNat < 0x80) := by
  induction chars with
  | nil => simp
  | cons c chars ih =>
    obtain ⟨hle, heq⟩ := ih
    rw [List.flatMap_cons, List.flatMap_cons, List.length_append, List.length_append,
      List.forall_mem_cons, ← heq]
    have hcases := length_utf16_cases c
    omega

theorem Visible.ascii {b : UInt8} (h : Visible b) : b < 0x80 ∧ b ≠ 0x0D ∧ b ≠ 0x0A ∧ b ≠ 0x20 := by
  obtain ⟨hlo, hhi⟩ := h
  refine ⟨UInt8.lt_of_le_of_lt hhi (by decide), ?_, ?_, ?_⟩ <;> rintro rfl <;>
    exact absurd hlo (by decide)

theorem lineText_ascii {bytes : List UInt8} (h : ∀ b ∈ bytes, b < 0x80) :
    lineText bytes = widen bytes := by
  have happend := @lineText_ascii_append bytes [] h (fun b hb ↦ by cases hb)
  rwa [List.append_nil, show lineText [] = [] from rfl, List.append_nil] at happend

theorem DenotesLength.ascii {value : List UInt8} {n : ℕ} (h : DenotesLength value n) :
    ∀ b ∈ value, b < 0x80 := by
  obtain ⟨before, digits, behind, rfl, hblank, -, hdigits, -⟩ := h
  intro b hb
  obtain hb | hb := List.mem_append.mp hb
  · obtain hb | hb := List.mem_append.mp hb
    · obtain rfl | rfl := hblank b (List.mem_append_left _ hb) <;> decide
    · exact UInt8.lt_of_le_of_lt (hdigits b hb).2 (by decide)
  · obtain rfl | rfl := hblank b (List.mem_append_right _ hb) <;> decide

namespace HttpRequest

variable {q : HttpRequest}

/-- The text of a header line. -/
theorem WellFormed.lineText_header (h : q.WellFormed) {header : List UInt8 × List UInt8}
    (hmem : header ∈ q.headers) :
    lineText (header.1 ++ 0x3A :: header.2) = widen header.1 ++ 0x3A :: lineText header.2 := by
  have hname : ∀ b ∈ header.1 ++ [0x3A], b < 0x80 := fun b hb ↦ by
    obtain hb | hb := List.mem_append.mp hb
    · exact ((h.name header hmem).2 b hb).1.ascii.1
    · rw [List.mem_singleton.mp hb]
      decide
  rw [List.append_cons, lineText_ascii_append hname (h.value header hmem), List.map_append,
    List.append_assoc]
  rfl

/-- **The headers** leave the length of the body, wherever `Content-Length` stands. -/
theorem WellFormed.foldl_headers (h : q.WellFormed) {headers : List (List UInt8 × List UInt8)}
    (hsub : headers ⊆ q.headers) (contentLength : ℤ) :
    (headers.map fun header ↦ lineText (header.1 ++ 0x3A :: header.2)).foldl headerLine
        contentLength =
      if headers.any fun header ↦ IsContentLength header.1 then (q.bodyBytes.length : ℤ)
      else contentLength := by
  induction headers generalizing contentLength with
  | nil => simp
  | cons header headers ih =>
    have hmem : header ∈ q.headers := hsub List.mem_cons_self
    have hlimit := h.limit
    rw [List.map_cons, List.foldl_cons, ih fun l hl ↦ hsub (List.mem_cons_of_mem header hl),
      h.lineText_header hmem, headerLine_eq (h.name header hmem).1 (h.name header hmem).2]
    by_cases hlength : IsContentLength header.1
    · have hdenotes := h.contentLength header hmem hlength
      rw [lineText_ascii hdenotes.ascii, toIntOrNull_of_denotesLength hdenotes (by omega)]
      simp [hlength]
    · rw [if_neg hlength, List.any_cons, decide_eq_false hlength, Bool.false_or]

/-- The bytes of the request line. -/
theorem WellFormed.requestLine_ascii (h : q.WellFormed) :
    ∀ b ∈ q.method ++ 0x20 :: q.target ++ 0x20 :: q.version, b < 0x80 ∧ b ≠ 0x0D ∧ b ≠ 0x0A := by
  have hvisible {b : UInt8} (hb : Visible b) : b < 0x80 ∧ b ≠ 0x0D ∧ b ≠ 0x0A :=
    ⟨hb.ascii.1, hb.ascii.2.1, hb.ascii.2.2.1⟩
  intro b hb
  simp only [List.mem_append, List.mem_cons] at hb
  obtain (hb | rfl | hb) | rfl | hb := hb
  · exact hvisible (h.method.2 b hb)
  · decide
  · exact hvisible (h.target.2 b hb)
  · decide
  · exact hvisible (h.version b hb)

theorem WellFormed.header_ne_break (h : q.WellFormed) {header : List UInt8 × List UInt8}
    (hmem : header ∈ q.headers) :
    ∀ b ∈ header.1 ++ 0x3A :: header.2, b ≠ 0x0D ∧ b ≠ 0x0A := by
  intro b hb
  obtain hb | hb := List.mem_append.mp hb
  · have hascii := ((h.name header hmem).2 b hb).1.ascii
    exact ⟨hascii.2.1, hascii.2.2.1⟩
  · obtain rfl | hb := List.mem_cons.mp hb
    · decide
    · exact h.value header hmem b hb

/-- The lines of a request have no breaks. -/
theorem WellFormed.lines_ne_break (h : q.WellFormed) :
    ∀ line ∈ q.lines, ∀ b ∈ line, b ≠ 0x0D ∧ b ≠ 0x0A := by
  intro line hline
  obtain rfl | hline := List.mem_cons.mp hline
  · exact fun b hb ↦ (h.requestLine_ascii b hb).2
  · obtain ⟨header, hmem, rfl⟩ := List.mem_map.mp hline
    exact h.header_ne_break hmem

theorem WellFormed.lineText_requestLine (h : q.WellFormed) :
    lineText (q.method ++ 0x20 :: q.target ++ 0x20 :: q.version) =
      widen q.method ++ 0x20 :: (widen q.target ++ 0x20 :: widen q.version) := by
  rw [lineText_ascii fun b hb ↦ (h.requestLine_ascii b hb).1]
  simp [widen]

/-- The bytes of the request as text. -/
theorem WellFormed.textOf_bytes (h : q.WellFormed) :
    textOf q.bytes = (widen q.method ++ 0x20 :: (widen q.target ++ 0x20 :: widen q.version)) ++
      0x0D :: 0x0A :: ((q.headers.map fun header ↦ lineText (header.1 ++ 0x3A :: header.2)).flatMap
        (· ++ [0x0D, 0x0A]) ++ 0x0D :: 0x0A :: q.body.flatMap utf16) := by
  have hbody : textOf q.bodyBytes = q.body.flatMap utf16 := by
    rw [textOf, bodyBytes, decode_flatMap]
  have hbytes : q.bytes =
      q.lines.flatMap (· ++ [0x0D, 0x0A]) ++ 0x0D :: 0x0A :: q.bodyBytes := by
    rw [bytes, List.append_assoc]
    rfl
  rw [hbytes, textOf_lines h.lines_ne_break, hbody, lines, List.map_cons, List.map_map,
    h.lineText_requestLine, List.flatMap_cons, List.append_assoc, List.append_assoc]
  rfl

/-- The fields of the request line. -/
theorem WellFormed.split_requestLine (h : q.WellFormed) :
    split 0x20 (widen q.method ++ 0x20 :: (widen q.target ++ 0x20 :: widen q.version)) =
      widen q.method :: widen q.target :: split 0x20 (widen q.version) := by
  have hblank {bytes : List UInt8} (hbytes : ∀ b ∈ bytes, Visible b) :
      ∀ c ∈ widen bytes, c ≠ 0x20 := fun c hc heq ↦ by
    obtain ⟨b, hb, rfl⟩ := List.mem_map.mp hc
    refine (hbytes b hb).ascii.2.2.2 (UInt8.toNat_inj.mp ?_)
    rw [← UInt8.toNat_toUInt16, heq]
    rfl
  rw [split_append (hblank h.method.2), split_append (hblank h.target.2)]

/-- `Content-Length` is there, or there is no body. -/
theorem WellFormed.contentLength_eq (h : q.WellFormed) :
    (if q.headers.any fun header ↦ IsContentLength header.1 then (q.bodyBytes.length : ℤ) else 0) =
      q.bodyBytes.length := by
  split
  case isTrue => rfl
  case isFalse hnone =>
    have hnil : q.body = [] := by
      by_contra hne
      obtain ⟨header, hmem, hlength⟩ := h.hasContentLength hne
      exact hnone (List.any_eq_true.mpr ⟨header, hmem, decide_eq_true hlength⟩)
    rw [bodyBytes, hnil]
    rfl

theorem length_le_length_unlines (lines : List Text) :
    lines.length ≤ (lines.flatMap (· ++ [0x0D, 0x0A])).length := by
  induction lines with
  | nil => exact Nat.le_refl 0
  | cons line lines ih =>
    rw [List.flatMap_cons, List.length_append, List.length_append, List.length_cons]
    simp only [List.length_cons, List.length_nil]
    omega

/-- **What is read** of a request on an open connection, in any chunks. -/
theorem WellFormed.handleClient_eq (h : q.WellFormed) {chunks : List (List UInt8)}
    (hchunks : chunks.flatten = q.bytes) :
    handleClient chunks false =
      if (q.body.flatMap utf16).length < q.bodyBytes.length then .waiting
      else .request (widen q.method) (widen q.target) (q.body.flatMap utf16) := by
  have htext := CharReader.text_ofChunks chunks
  rw [hchunks, h.textOf_bytes] at htext
  have hrequestLine := (textOf_line (h.lines_ne_break _ List.mem_cons_self) []).1
  rw [h.lineText_requestLine] at hrequestLine
  obtain ⟨reader, hread, hrest, hopen⟩ := CharReader.readLine_of_line hrequestLine htext
  have hlines : ∀ line ∈ q.headers.map fun header ↦ lineText (header.1 ++ 0x3A :: header.2),
      IsLine line ∧ line ≠ [] := by
    intro line hline
    obtain ⟨header, hmem, rfl⟩ := List.mem_map.mp hline
    refine ⟨(textOf_line (h.header_ne_break hmem) []).1, ?_⟩
    rw [h.lineText_header hmem]
    exact List.append_ne_nil_of_right_ne_nil _ (List.cons_ne_nil _ _)
  have hfuel : (q.headers.map fun header ↦ lineText (header.1 ++ 0x3A :: header.2)).length <
      reader.chunks.flatten.length + 1 := by
    have hcount := length_le_length_unlines
      (q.headers.map fun header ↦ lineText (header.1 ++ 0x3A :: header.2))
    have hlen := reader.length_text_le
    rw [hrest, List.length_append] at hlen
    exact Nat.lt_succ_of_le (hcount.trans ((Nat.le_add_right _ _).trans hlen))
  obtain ⟨reader', hheaders, hbody, hopen'⟩ := @readHeaders_lines reader 0 _ hlines _ hfuel _ hrest
  rw [h.foldl_headers (List.Subset.refl _), h.contentLength_eq] at hheaders
  have hlimit : ¬maxRequestBodyBytes < (q.bodyBytes.length : ℤ) := by
    have hle := h.limit
    rw [maxRequestBodyBytes]
    omega
  rw [handleClient, serve, hread]
  simp only [Option.bind_eq_bind, Option.bind_some, h.split_requestLine, hheaders, if_neg hlimit,
    Int.toNat_natCast]
  split
  case isTrue hlt =>
    rw [readBody_of_lt (hopen'.trans hopen) (by rwa [List.nil_append, hbody])]
    rfl
  case isFalse hge =>
    have hle : (q.body.flatMap utf16).length ≤ q.bodyBytes.length := (length_utf16_le q.body).1
    rw [readBody_of_le (Nat.zero_le _) (by simp) (by rw [List.nil_append, hbody]; omega),
      List.nil_append, hbody, List.take_of_length_le hle, (trimmed_widen h.method.2).trim_eq,
      (trimmed_widen h.target.2).trim_eq]
    rfl

end HttpRequest

/-- **The body** of a well-formed request arrives at `handleRequest`, without waiting for more bytes
than were sent, exactly when it is ASCII. -/
theorem body_received_iff {q : HttpRequest} (h : q.WellFormed) {chunks : List (List UInt8)}
    (hchunks : chunks.flatten = q.bytes) :
    (∃ method path, handleClient chunks false = .request method path (q.body.flatMap utf16)) ↔
      ∀ c ∈ q.body, c.toNat < 0x80 := by
  obtain ⟨hle, heq⟩ := length_utf16_le q.body
  rw [h.handleClient_eq hchunks, ← heq]
  constructor
  · rintro ⟨method, path, hrequest⟩
    split at hrequest
    · cases hrequest
    · rename_i hnot
      exact Nat.le_antisymm hle (Nat.not_lt.mp hnot)
  · intro hlen
    exact ⟨_, _, if_neg (Nat.not_lt.mpr (Nat.le_of_eq hlen.symm))⟩

/-- `POST /adb/enable` with a body of two bytes. -/
def sampleRequest (body : List Char) : HttpRequest where
  method := [0x50, 0x4F, 0x53, 0x54]
  target := [0x2F, 0x61, 0x64, 0x62, 0x2F, 0x65, 0x6E, 0x61, 0x62, 0x6C, 0x65]
  version := [0x48, 0x54, 0x54, 0x50, 0x2F, 0x31, 0x2E, 0x31]
  headers :=
    [([0x43, 0x6F, 0x6E, 0x74, 0x65, 0x6E, 0x74, 0x2D, 0x4C, 0x65, 0x6E, 0x67, 0x74, 0x68],
      [0x20, 0x32])]
  body := body

theorem wellFormed_sampleRequest {body : List Char}
    (h : (sampleRequest body).bodyBytes.length = 2) : (sampleRequest body).WellFormed where
  method := by
    simp only [sampleRequest]
    decide +kernel
  target := by
    simp only [sampleRequest]
    decide +kernel
  version := by
    simp only [sampleRequest]
    decide +kernel
  name := by
    simp only [sampleRequest]
    decide +kernel
  value := by
    simp only [sampleRequest]
    decide +kernel
  contentLength header hmem _ := by
    rw [List.mem_singleton.mp hmem, h]
    exact ⟨[0x20], [0x32], [], rfl, by decide +kernel, by decide, by decide +kernel, rfl⟩
  hasContentLength _ := ⟨_, List.mem_singleton_self _, by decide⟩
  limit := h.symm ▸ by decide

/-- A body of two ASCII characters, in two chunks. -/
theorem body_received_iff_ascii :
    (∃ method path, handleClient [(sampleRequest ['{', '}']).bytes.take 20,
        (sampleRequest ['{', '}']).bytes.drop 20] false =
      .request method path (['{', '}'].flatMap utf16)) ↔ ∀ c ∈ ['{', '}'], c.toNat < 0x80 :=
  body_received_iff (wellFormed_sampleRequest (by decide)) (by decide)

/-- For a body that is one character of two bytes, the handler waits for another one. -/
theorem body_of_two_bytes_waits :
    (sampleRequest ['é']).WellFormed ∧
      ¬∃ method path, handleClient [(sampleRequest ['é']).bytes] false =
        .request method path (['é'].flatMap utf16) := by
  have hwf : (sampleRequest ['é']).WellFormed := wellFormed_sampleRequest (by decide)
  refine ⟨hwf, ?_⟩
  rintro ⟨method, path, hrequest⟩
  rw [hwf.handleClient_eq (List.append_nil _), if_pos (by decide)] at hrequest
  cases hrequest

end AllRelay.PhoneHttp
