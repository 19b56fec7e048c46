import AllRelay.Library.LabelledSystem
import AllRelay.Library.StreamDecoder
import AllRelay.Library.Utf8Boundary
import AllRelay.Library.Wire
import Mathlib.Tactic.NormNum

/-!
# Device messages

The phone answers the desktop client on the control socket. `DeviceMessageSender` queues what its
callers send, and drops it when the queue is full; its thread writes the messages with
`DeviceMessageWriter`. The client receives the stream in chunks of any size into a buffer
(`run_receiver`) and handles every message that is complete (`process_msgs`). The size of the buffer
is that of the longest message.

`Link` is the two together with the bytes between them. `device_messages_arrive` says that the
messages arrive in order and each once, that the buffer is never full when more is received, and
that nothing stays behind when all the bytes have arrived.
-/

namespace AllRelay.DeviceMessages

open LabelledSystem StreamDecoder Wire

/-! ### Messages -/

/-- `DeviceMessage`. -/
inductive DeviceMessage where
  /-- `TYPE_CLIPBOARD`. -/
  | clipboard (text : List UInt16)
  /-- `TYPE_ACK_CLIPBOARD`. -/
  | ackClipboard (sequence : ℤ)
  /-- `TYPE_UHID_OUTPUT`. -/
  | uhidOutput (id : ℤ) (data : List UInt8)
deriving DecidableEq, Repr

/-- `struct sc_device_msg`. -/
inductive DeviceMsg where
  /-- `DEVICE_MSG_TYPE_CLIPBOARD`. -/
  | clipboard (text : List UInt8)
  /-- `DEVICE_MSG_TYPE_ACK_CLIPBOARD`. -/
  | ackClipboard (sequence : ℕ)
  /-- `DEVICE_MSG_TYPE_UHID_OUTPUT`. -/
  | uhidOutput (id : ℕ) (data : List UInt8)
deriving DecidableEq, Repr

/-- `DEVICE_MSG_MAX_SIZE`, and `MESSAGE_MAX_SIZE` of the writer. -/
def messageMaxSize : ℕ := 2 ^ 18

/-- `CLIPBOARD_TEXT_MAX_LENGTH` of the writer. -/
def clipboardTextMaxLength : ℕ := messageMaxSize - 5

/-! ### The writer -/

/-- A code point of a Java string as it is encoded: a lone surrogate becomes a question mark. -/
def codePoint : List UInt16 → Char
  | [u] => if Utf.isHigh u || Utf.isLow u then '?' else Utf.scalar [u]
  | point => Utf.scalar point

/-- The code points of a Java string as they are encoded. -/
def codePoints (text : List UInt16) : List Char :=
  (Utf.points text).map codePoint

/-- `text.getBytes(StandardCharsets.UTF_8)`. -/
def getBytes (text : List UInt16) : List UInt8 :=
  (codePoints text).flatMap String.utf8EncodeChar

/-- `StringUtils.getUtf8TruncationIndex`; none if it reads in front of the array. -/
def getUtf8TruncationIndex (utf8 : List UInt8) (maxLength : ℕ) : Option ℕ :=
  Utf.truncationIndex utf8 maxLength

/-- `DeviceMessageWriter.write`. -/
def write : DeviceMessage → Option (List UInt8)
  | .clipboard text => do
    let raw := getBytes text
    let len ← getUtf8TruncationIndex raw clipboardTextMaxLength
    return ofInt 1 0 ++ (ofInt 4 len ++ raw.take len)
  | .ackClipboard sequence => some (ofInt 1 1 ++ ofInt 8 sequence)
  | .uhidOutput id data => some (ofInt 1 2 ++ (ofInt 2 id ++ (ofInt 2 data.length ++ data)))

/-! ### The receiver -/

/-- `sc_device_msg_deserialize`, where `malloc` says which allocations succeed. -/
def deserialize (malloc : ℕ → Bool) (buf : List UInt8) : Outcome DeviceMsg :=
  match buf with
  | [] => .incomplete
  | type :: _ =>
    match type.toNat with
    | 0 =>
      if buf.length < 5 then .incomplete
      else
        let clipboardLen := value ((buf.drop 1).take 4)
        if buf.length - 5 < clipboardLen then .incomplete
        else if !malloc (clipboardLen + 1) then .error
        else .message (.clipboard ((buf.drop 5).take clipboardLen)) (5 + clipboardLen)
    | 1 =>
      if buf.length < 9 then .incomplete
      else .message (.ackClipboard (value ((buf.drop 1).take 8))) 9
    | 2 =>
      if buf.length < 5 then .incomplete
      else
        let id := value ((buf.drop 1).take 2)
        let size := value ((buf.drop 3).take 2)
        if buf.length - 5 < size then .incomplete
        else if !malloc size then .error
        else .message (.uhidOutput id ((buf.drop 5).take size)) (5 + size)
    | _ => .error

/-- The thread of `run_receiver`. -/
structure Receiver where
  /-- The first `head` bytes of `buf`. -/
  buffer : List UInt8
  /-- The messages that `process_msg` was called with. -/
  messages : List DeviceMsg
  /-- The error flag of `on_ended`, once the thread has returned. -/
  ended : Option Bool
  /-- `assert(head < DEVICE_MSG_MAX_SIZE)` failed. -/
  aborted : Bool
deriving DecidableEq, Repr

/-- A pass of the loop of `run_receiver`, where `net_recv` gives `chunk`; nothing at the end of the
connection. `process_msgs` is `drain`. -/
def Receiver.recv (malloc : ℕ → Bool) (r : Receiver) (chunk : List UInt8) : Receiver :=
  if messageMaxSize ≤ r.buffer.length then { r with aborted := true }
  else if chunk = [] then { r with ended := some false }
  else
    let buf := r.buffer ++ chunk
    match drain (deserialize malloc) (buf.length + 1) buf with
    | (msgs, none) => { r with messages := r.messages ++ msgs, ended := some true }
    | (msgs, some rest) => { r with messages := r.messages ++ msgs, buffer := rest }

/-! ### The link -/

/-- The phone's sender, the client's receiver, the bytes between them and what happened. -/
structure Link where
  /-- `DeviceMessageSender.queue`, oldest first. -/
  queue : List DeviceMessage
  /-- The sender's thread is in its loop. -/
  running : Bool
  /-- What was written and not received yet. -/
  wire : List UInt8
  /-- The client. -/
  receiver : Receiver
  /-- The messages that entered the queue, oldest first. -/
  accepted : List DeviceMessage
  /-- The messages that did not, with the messages that were waiting. -/
  dropped : List (DeviceMessage × ℕ)
  /-- The messages that the thread took to write, oldest first. -/
  written : List DeviceMessage
  /-- The bytes that were received. -/
  received : List UInt8
deriving DecidableEq, Repr

/-- What the threads and the network do. -/
inductive Label where
  /-- A call of `DeviceMessageSender.send`. -/
  | send (msg : DeviceMessage)
  /-- The sender's thread takes a message and writes it, and the socket accepts this many bytes. -/
  | write (accepted : ℕ)
  /-- The sender's thread ends. -/
  | stop
  /-- This many bytes are received. -/
  | recv (n : ℕ)
  /-- The connection has ended. -/
  | close
deriving DecidableEq, Repr

namespace Link

/-- The capacity of the queue. -/
def capacity : ℕ := 16

/-- Before the first message. -/
def init : Link :=
  ⟨[], true, [], ⟨[], [], none, false⟩, [], [], [], []⟩

/-- One step. -/
def step (malloc : ℕ → Bool) (s : Link) (l : Label) : Option Link :=
  match l with
  | .send msg =>
    if s.queue.length < capacity then
      some { s with queue := s.queue ++ [msg], accepted := s.accepted ++ [msg] }
    else some { s with dropped := s.dropped ++ [(msg, s.queue.length)] }
  | .write accepted =>
    match s.running, s.queue with
    | true, msg :: queue =>
      let s := { s with queue := queue, written := s.written ++ [msg] }
      match DeviceMessages.write msg with
      | none => some { s with running := false }
      | some bytes =>
        some { s with wire := s.wire ++ bytes.take accepted, running := bytes.length ≤ accepted }
    | _, _ => none
  | .stop => some { s with running := false }
  | .recv n =>
    let n := min n (messageMaxSize - s.receiver.buffer.length)
    let chunk := s.wire.take n
    -- With a full buffer the assertion in front of `net_recv` fails.
    if s.receiver.ended = none ∧ s.receiver.aborted = false ∧
        (chunk ≠ [] ∨ messageMaxSize ≤ s.receiver.buffer.length) then
      some { s with
        wire := s.wire.drop n
        receiver := s.receiver.recv malloc chunk
        received := s.received ++ chunk }
    else none
  | .close =>
    if s.receiver.ended = none ∧ s.receiver.aborted = false then
      some { s with receiver := s.receiver.recv malloc [] }
    else none

end Link

/-! ### One message -/

/-- The message that the phone's message stands for. -/
def Decodes : DeviceMessage → DeviceMsg → Prop
  | .clipboard text, m => ∃ p, Utf.IsLongestPrefix clipboardTextMaxLength (codePoints text) p ∧
    m = .clipboard (p.flatMap String.utf8EncodeChar)
  | .ackClipboard sequence, m => m = .ackClipboard (sequence % 2 ^ 64).toNat
  | .uhidOutput id data, m => m = .uhidOutput (id % 2 ^ 16).toNat data

/-- A report is shorter than its length field says. -/
def DeviceMessage.InRange : DeviceMessage → Prop
  | .uhidOutput _ data => data.length < 65536
  | _ => True

variable {malloc : ℕ → Bool}

/-- A field of a buffer, behind what stands in front of it. -/
theorem field_eq (front field rest : List UInt8) {k n : ℕ} (hk : front.length = k)
    (hn : field.length = n) : ((front ++ (field ++ rest)).drop k).take n = field := by
  rw [← hk, ← hn, List.drop_left, List.take_left]

theorem value_ofInt_natCast {k n : ℕ} (hn : n < 256 ^ k) : value (ofInt k n) = n := by
  have h := value_ofInt k n
  rw [Int.emod_eq_of_lt (by omega) (by exact_mod_cast hn)] at h
  exact_mod_cast h

theorem value_ofInt_toNat (k : ℕ) (v : ℤ) : value (ofInt k v) = (v % 256 ^ k).toNat := by
  have h := value_ofInt k v
  omega

/-- **A clipboard message** is decoded once all its bytes are there. -/
theorem deserialize_clipboard {n : ℕ} (hn : n < 2 ^ 32) (p : List UInt8) :
    deserialize malloc (ofInt 1 0 ++ (ofInt 4 n ++ p)) =
      if p.length < n then .incomplete
      else if !malloc (n + 1) then .error else .message (.clipboard (p.take n)) (5 + n) := by
  have hlen : (ofInt 1 0 ++ (ofInt 4 n ++ p)).length = 5 + p.length := by
    simp only [List.length_append, length_ofInt]
    omega
  have hfield := field_eq (ofInt 1 0) (ofInt 4 n) p (length_ofInt _ _) (length_ofInt _ _)
  have hrest : (ofInt 1 0 ++ (ofInt 4 (n : ℤ) ++ p)).drop 5 = p := rfl
  have hcons : ofInt 1 0 ++ (ofInt 4 (n : ℤ) ++ p) = 0 :: (ofInt 4 (n : ℤ) ++ p) := rfl
  have hvalue : value (ofInt 4 (n : ℤ)) = n := value_ofInt_natCast (hn.trans_eq (by norm_num))
  rw [hcons] at hlen hfield hrest ⊢
  rw [deserialize]
  simp only [UInt8.toNat_zero, hlen, hfield, hrest, hvalue]
  rw [if_neg (by omega), Nat.add_sub_cancel_left]

/-- **An acknowledgement** is decoded once all its bytes are there. -/
theorem deserialize_ackClipboard (p : List UInt8) :
    deserialize malloc (ofInt 1 1 ++ p) =
      if p.length < 8 then .incomplete else .message (.ackClipboard (value (p.take 8))) 9 := by
  have hlen : (ofInt 1 1 ++ p).length = 1 + p.length := by
    rw [List.length_append, length_ofInt]
  have hrest : (ofInt 1 1 ++ p).drop 1 = p := rfl
  have hcons : ofInt 1 1 ++ p = 1 :: p := rfl
  have hshort : 1 + p.length < 9 ↔ p.length < 8 := by omega
  rw [hcons] at hlen hrest ⊢
  rw [deserialize]
  simp only [UInt8.toNat_one, hlen, hrest, hshort]

/-- **A report** is decoded once all its bytes are there. -/
theorem deserialize_uhidOutput (id : ℤ) {n : ℕ} (hn : n < 2 ^ 16) (p : List UInt8) :
    deserialize malloc (ofInt 1 2 ++ (ofInt 2 id ++ (ofInt 2 n ++ p))) =
      if p.length < n then .incomplete
      else if !malloc n then .error
      else .message (.uhidOutput (id % 2 ^ 16).toNat (p.take n)) (5 + n) := by
  have hlen : (ofInt 1 2 ++ (ofInt 2 id ++ (ofInt 2 n ++ p))).length = 5 + p.length := by
    simp only [List.length_append, length_ofInt]
    omega
  have hid := field_eq (ofInt 1 2) (ofInt 2 id) (ofInt 2 n ++ p) (length_ofInt _ _)
    (length_ofInt _ _)
  have hsize : ((ofInt 1 2 ++ (ofInt 2 id ++ (ofInt 2 (n : ℤ) ++ p))).drop 3).take 2 =
      ofInt 2 n := field_eq (ofInt 1 2 ++ ofInt 2 id) (ofInt 2 n) p rfl rfl
  have hrest : (ofInt 1 2 ++ (ofInt 2 id ++ (ofInt 2 (n : ℤ) ++ p))).drop 5 = p := rfl
  have hcons : ofInt 1 2 ++ (ofInt 2 id ++ (ofInt 2 (n : ℤ) ++ p)) =
      2 :: (ofInt 2 id ++ (ofInt 2 (n : ℤ) ++ p)) := rfl
  rw [hcons] at hlen hid hsize hrest ⊢
  rw [deserialize]
  have htwo : (2 : UInt8).toNat = 2 := rfl
  have hidvalue : value (ofInt 2 id) = (id % 2 ^ 16).toNat := value_ofInt_toNat 2 id
  have hvalue : value (ofInt 2 (n : ℤ)) = n := value_ofInt_natCast (hn.trans_eq (by norm_num))
  simp only [htwo, hlen, hid, hsize, hrest, hidvalue, hvalue]
  rw [if_neg (by omega), Nat.add_sub_cancel_left]

/-- Less than the fixed part of a message is not enough. -/
theorem deserialize_of_lt {type : UInt8} {tail : List UInt8}
    (h : type = 0 ∧ tail.length < 4 ∨ type = 1 ∧ tail.length < 8 ∨ type = 2 ∧ tail.length < 4) :
    deserialize malloc (type :: tail) = .incomplete := by
  obtain ⟨rfl, h⟩ | ⟨rfl, h⟩ | ⟨rfl, h⟩ := h <;> exact if_pos (Nat.succ_lt_succ h)

/-- A part of a message, split at the end of its fixed part. -/
theorem part_cases (type : UInt8) (header payload : List UInt8) {part : List UInt8}
    (h : part <+: type :: (header ++ payload)) :
    part = [] ∨ (∃ tail, part = type :: tail ∧ tail.length < header.length) ∨
      ∃ p, part = type :: (header ++ p) ∧ p <+: payload := by
  cases part with
  | nil => exact .inl rfl
  | cons b tail =>
    obtain ⟨rfl, htail⟩ := List.cons_prefix_cons.1 h
    rcases Nat.lt_or_ge tail.length header.length with hlt | hge
    · exact .inr (.inl ⟨tail, rfl, hlt⟩)
    · obtain ⟨p, rfl⟩ :=
        List.prefix_of_prefix_length_le (List.prefix_append header payload) htail hge
      exact .inr (.inr ⟨p, rfl, (List.prefix_append_right_inj header).1 htail⟩)

/-- A proper prefix is shorter. -/
theorem length_lt_of_part {part payload : List UInt8} (h : part <+: payload)
    (hne : part ≠ payload) : part.length < payload.length := by
  rcases Nat.lt_or_ge part.length payload.length with hlt | hge
  · exact hlt
  · exact absurd (h.eq_of_length_le hge) hne

/-- **One message**: it fits the buffer of the client, which finds it whatever follows and waits in
the middle of it. -/
theorem finds_write {msg : DeviceMessage} (hrange : msg.InRange)
    (hmalloc : ∀ n, malloc n = true) :
    ∃ bytes m, write msg = some bytes ∧ Decodes msg m ∧ bytes ≠ [] ∧
      bytes.length ≤ messageMaxSize ∧ Finds (deserialize malloc) bytes m ∧
      Waits (deserialize malloc) bytes := by
  cases msg with
  | clipboard text =>
    obtain ⟨p, hp, hindex, htake⟩ :=
      Utf.truncationIndex_flatMap (codePoints text) clipboardTextMaxLength
    have hfits := hp.fits
    have hmax : clipboardTextMaxLength = 2 ^ 18 - 5 := rfl
    generalize hpayload : p.flatMap String.utf8EncodeChar = payload at hindex htake hfits
    have hn : payload.length < 2 ^ 32 := by omega
    refine ⟨ofInt 1 0 ++ (ofInt 4 payload.length ++ payload), .clipboard payload, ?_,
      ⟨p, hp, by rw [hpayload]⟩, List.cons_ne_nil _ _, ?_, fun rest ↦ ?_, fun part hpart hne ↦ ?_⟩
    · rw [write, getUtf8TruncationIndex, getBytes, hindex]
      show some _ = _
      rw [htake]
    · simp only [List.length_append, length_ofInt, messageMaxSize]
      omega
    · rw [List.append_assoc, List.append_assoc, deserialize_clipboard hn,
        if_neg (by rw [List.length_append]; omega), hmalloc, List.take_left]
      simp only [List.length_append, length_ofInt, ← Nat.add_assoc]
      rfl
    · obtain rfl | ⟨tail, rfl, hlt⟩ | ⟨q, rfl, hq⟩ :=
        part_cases 0 (ofInt 4 payload.length) payload hpart
      · rfl
      · exact deserialize_of_lt (.inl ⟨rfl, hlt⟩)
      · have hlt : q.length < payload.length :=
          length_lt_of_part hq fun heq ↦ hne (by rw [heq]; rfl)
        exact (deserialize_clipboard hn q).trans (if_pos hlt)
  | ackClipboard sequence =>
    have hdecodes : Decodes (.ackClipboard sequence) (.ackClipboard (sequence % 2 ^ 64).toNat) :=
      rfl
    refine ⟨_, _, rfl, hdecodes, List.cons_ne_nil _ _, ?_, fun rest ↦ ?_, fun part hpart hne ↦ ?_⟩
    · rw [List.length_append, length_ofInt, length_ofInt, messageMaxSize]
      norm_num
    · have hfield : (ofInt 8 sequence ++ rest).take 8 = ofInt 8 sequence :=
        List.take_left' (length_ofInt _ _)
      have hvalue : value (ofInt 8 sequence) = (sequence % 2 ^ 64).toNat :=
        value_ofInt_toNat 8 sequence
      rw [List.append_assoc, deserialize_ackClipboard,
        if_neg (by rw [List.length_append, length_ofInt]; omega), hfield, hvalue]
      rfl
    · obtain rfl | ⟨tail, rfl, hlt⟩ | ⟨q, rfl, hq⟩ := part_cases 1 [] (ofInt 8 sequence) hpart
      · rfl
      · exact absurd hlt (Nat.not_lt_zero _)
      · have hlt := length_lt_of_part hq fun heq ↦ hne (by rw [heq]; rfl)
        rw [length_ofInt] at hlt
        exact deserialize_of_lt (.inr (.inl ⟨rfl, hlt⟩))
  | uhidOutput id data =>
    have hn : data.length < 2 ^ 16 := hrange
    have hdecodes : Decodes (.uhidOutput id data) (.uhidOutput (id % 2 ^ 16).toNat data) := rfl
    refine ⟨_, _, rfl, hdecodes, List.cons_ne_nil _ _, ?_, fun rest ↦ ?_, fun part hpart hne ↦ ?_⟩
    · simp only [List.length_append, length_ofInt, messageMaxSize]
      omega
    · rw [List.append_assoc, List.append_assoc, List.append_assoc, deserialize_uhidOutput id hn,
        if_neg (by rw [List.length_append]; omega), hmalloc, List.take_left]
      simp only [List.length_append, length_ofInt, ← Nat.add_assoc]
      rfl
    · obtain rfl | ⟨tail, rfl, hlt⟩ | ⟨q, rfl, hq⟩ :=
        part_cases 2 (ofInt 2 id ++ ofInt 2 data.length) data hpart
      · rfl
      · exact deserialize_of_lt (.inr (.inr ⟨rfl, hlt⟩))
      · have hlt : q.length < data.length :=
          length_lt_of_part hq fun heq ↦ hne (by rw [heq]; rfl)
        exact (deserialize_uhidOutput id hn q).trans (if_pos hlt)

/-! ### The stream -/

/-- A message as it is written. -/
def encoding (msg : DeviceMessage) : List UInt8 :=
  (write msg).getD []

/-- Messages as they are written. -/
def encodings (msgs : List DeviceMessage) : List (List UInt8) :=
  msgs.map encoding

theorem encoding_eq {msg : DeviceMessage} {bytes : List UInt8} (h : write msg = some bytes) :
    encoding msg = bytes := by
  rw [encoding, h, Option.getD_some]

theorem flatten_encodings_append (msgs more : List DeviceMessage) :
    (encodings (msgs ++ more)).flatten = (encodings msgs).flatten ++ (encodings more).flatten := by
  rw [encodings, List.map_append, List.flatten_append]
  rfl

/-- Every message of a stream is found, and none is empty or too long. -/
theorem finds_encodings {msgs : List DeviceMessage} (hrange : ∀ msg ∈ msgs, msg.InRange)
    (hmalloc : ∀ n, malloc n = true) :
    (∃ ms, List.Forall₂ Decodes msgs ms ∧
      List.Forall₂ (Finds (deserialize malloc)) (encodings msgs) ms) ∧
    ∀ enc ∈ encodings msgs, enc ≠ [] ∧ enc.length ≤ messageMaxSize ∧
      Waits (deserialize malloc) enc := by
  induction msgs with
  | nil => exact ⟨⟨[], .nil, .nil⟩, fun _ h ↦ nomatch h⟩
  | cons msg msgs ih =>
    obtain ⟨⟨ms, hms, hfinds⟩, hall⟩ := ih fun m hm ↦ hrange m (List.mem_cons_of_mem _ hm)
    obtain ⟨bytes, m, hbytes, hm, hne, hlen, hfind, hwait⟩ :=
      finds_write (hrange msg List.mem_cons_self) hmalloc
    obtain rfl := encoding_eq hbytes
    refine ⟨⟨m :: ms, .cons hm hms, .cons hfind hfinds⟩, fun enc he ↦ ?_⟩
    rcases List.mem_cons.1 he with rfl | he
    · exact ⟨hne, hlen, hwait⟩
    · exact hall enc he

namespace Link

/-- The invariant. -/
structure Inv (s : Link) : Prop where
  /-- What entered the queue is what was written and what waits. -/
  fifo : s.written ++ s.queue = s.accepted
  /-- The queue has room for 16 messages. -/
  room : s.queue.length ≤ capacity
  /-- A message is dropped only when that many wait. -/
  full : ∀ p ∈ s.dropped, p.2 = capacity
  /-- What entered the queue is in range. -/
  range : ∀ msg ∈ s.accepted, msg.InRange
  /-- The assertion holds. -/
  alive : s.receiver.aborted = false
  /-- The receiver does not fail. -/
  noError : s.receiver.ended ≠ some true
  /-- The bytes are those of the messages, but for the end of the last one if the sender failed. -/
  stream : s.received ++ s.wire <+: (encodings s.written).flatten
  /-- A sender that runs has written whole messages. -/
  whole : s.running = true → s.received ++ s.wire = (encodings s.written).flatten
  /-- The messages that were handled are the first that were written, and the buffer holds part of
  the next. -/
  arrived : ∃ done todo, s.written = done ++ todo ∧ List.Forall₂ Decodes done s.receiver.messages ∧
    s.received = (encodings done).flatten ++ s.receiver.buffer ∧
    PartOf s.receiver.buffer (encodings todo)

theorem Inv.init : Link.init.Inv where
  fifo := rfl
  room := Nat.zero_le _
  full _ h := nomatch h
  range _ h := nomatch h
  alive := rfl
  noError h := nomatch h
  stream := List.prefix_rfl
  whole _ := rfl
  arrived := ⟨[], [], rfl, .nil, rfl, rfl⟩

/-- What was written is in range. -/
theorem Inv.range_written {s : Link} (h : s.Inv) : ∀ msg ∈ s.written, msg.InRange :=
  fun msg hmsg ↦ h.range msg (h.fifo ▸ List.mem_append_left _ hmsg)

/-- `DeviceMessageSender.send`. -/
theorem Inv.send {s t : Link} (h : s.Inv) {msg : DeviceMessage} (hmsg : msg.InRange)
    (hstep : s.step malloc (.send msg) = some t) : t.Inv := by
  rw [step] at hstep
  split at hstep
  · next hroom =>
    obtain rfl := Option.some.inj hstep
    refine { h with fifo := ?_, room := ?_, range := fun m hm ↦ ?_ }
    · rw [← List.append_assoc, h.fifo]
    · rw [List.length_append]
      exact hroom
    · rcases List.mem_append.1 hm with hm | hm
      · exact h.range m hm
      · exact List.mem_singleton.1 hm ▸ hmsg
  · next hfull =>
    obtain rfl := Option.some.inj hstep
    refine { h with full := fun p hp ↦ ?_ }
    rcases List.mem_append.1 hp with hp | hp
    · exact h.full p hp
    · obtain rfl := List.mem_singleton.1 hp
      exact Nat.le_antisymm h.room (Nat.not_lt.1 hfull)

/-- The sender's thread writes a message. -/
theorem Inv.write {s t : Link} (h : s.Inv) (hmalloc : ∀ n, malloc n = true) {accepted : ℕ}
    (hstep : s.step malloc (.write accepted) = some t) : t.Inv := by
  rw [step] at hstep
  split at hstep
  · next msg queue hrunning hqueue =>
    have hmem : msg ∈ s.accepted := by
      rw [← h.fifo, hqueue]
      exact List.mem_append_right _ List.mem_cons_self
    obtain ⟨bytes, m, hbytes, -, hne, -, -, -⟩ := finds_write (h.range msg hmem) hmalloc
    simp only [hbytes, Option.some.injEq] at hstep
    subst hstep
    have hencodings : (encodings (s.written ++ [msg])).flatten =
        s.received ++ s.wire ++ bytes := by
      rw [flatten_encodings_append, h.whole hrunning]
      simp [encoding_eq hbytes, encodings]
    obtain ⟨done, todo, hwritten, hdone, hreceived, hpart⟩ := h.arrived
    refine { h with fifo := ?_, room := ?_, stream := ?_, whole := ?_, arrived := ?_ }
    · rw [List.append_assoc, ← h.fifo, hqueue]
      rfl
    · have hroom := h.room
      rw [hqueue, List.length_cons] at hroom
      exact Nat.le_of_succ_le hroom
    · show s.received ++ (s.wire ++ bytes.take accepted) <+:
        (encodings (s.written ++ [msg])).flatten
      rw [hencodings, ← List.append_assoc]
      exact (List.prefix_append_right_inj _).2 (List.take_prefix _ _)
    · intro hrun
      have hall : bytes.length ≤ accepted := of_decide_eq_true hrun
      show s.received ++ (s.wire ++ bytes.take accepted) = (encodings (s.written ++ [msg])).flatten
      rw [hencodings, List.take_of_length_le hall, List.append_assoc]
    · refine ⟨done, todo ++ [msg], by rw [hwritten, List.append_assoc], hdone, hreceived, ?_⟩
      rw [encodings, List.map_append]
      refine hpart.append fun enc henc ↦ ?_
      obtain rfl := List.mem_singleton.1 henc
      rw [encoding_eq hbytes]
      exact hne
  · cases hstep

/-- **The buffer is never full**: it holds part of a single message. -/
theorem Inv.buffer_lt {s : Link} (h : s.Inv) (hmalloc : ∀ n, malloc n = true) :
    s.receiver.buffer.length < messageMaxSize := by
  obtain ⟨done, todo, hwritten, -, -, hpart⟩ := h.arrived
  cases todo with
  | nil =>
    have hnil : s.receiver.buffer = [] := hpart
    rw [hnil]
    exact Nat.two_pow_pos 18
  | cons msg todo =>
    have hmem : encoding msg ∈ encodings s.written := by
      rw [hwritten]
      exact List.mem_map_of_mem (List.mem_append_right _ List.mem_cons_self)
    obtain ⟨-, hlen, -⟩ := (finds_encodings h.range_written hmalloc).2 _ hmem
    obtain ⟨hpart', hne⟩ : s.receiver.buffer <+: encoding msg ∧ _ := hpart
    exact (length_lt_of_part hpart' hne).trans_le hlen

/-- A pass of the loop of `run_receiver` with some bytes. -/
theorem Inv.recv {s t : Link} (h : s.Inv) (hmalloc : ∀ n, malloc n = true) {n : ℕ}
    (hstep : s.step malloc (.recv n) = some t) : t.Inv := by
  rw [step] at hstep
  generalize min n (messageMaxSize - s.receiver.buffer.length) = k at hstep
  obtain ⟨⟨hended, halive, hchunk⟩, heq⟩ := Option.ite_none_right_eq_some.1 hstep
  obtain rfl := Option.some.inj heq
  have hroom := h.buffer_lt hmalloc
  have hne : s.wire.take k ≠ [] := hchunk.resolve_right (Nat.not_le.2 hroom)
  obtain ⟨done, todo, hwritten, hdone, hreceived, hpart⟩ := h.arrived
  have hrange := h.range_written
  rw [hwritten] at hrange
  obtain ⟨⟨ms, hms, hfinds⟩, hall⟩ :=
    finds_encodings (fun msg hmsg ↦ hrange msg (List.mem_append_right _ hmsg))
      hmalloc
  have harrived : s.received ++ s.wire.take k ++ s.wire.drop k = s.received ++ s.wire := by
    rw [List.append_assoc, List.take_append_drop]
  have hpart' : s.receiver.buffer ++ s.wire.take k <+: (encodings todo).flatten := by
    have hstream : s.received ++ s.wire.take k <+: (encodings s.written).flatten :=
      (List.prefix_append _ _).trans (harrived ▸ h.stream)
    rw [hreceived, hwritten, flatten_encodings_append, List.append_assoc] at hstream
    exact (List.prefix_append_right_inj _).1 hstream
  obtain ⟨whole, rest, part, hsplit, hbytes, hrest, hdrain⟩ :=
    drain_split hfinds (fun enc he ↦ (hall enc he).2.2) (fun enc he ↦ (hall enc he).1) rfl hpart'
      (Nat.lt_succ_self _)
  obtain ⟨first, second, rfl, hfirst, hsecond⟩ := List.map_eq_append_iff.1 hsplit
  have hlen : whole.length = first.length := by rw [← hfirst, List.length_map]
  have hrecv : s.receiver.recv malloc (s.wire.take k) =
      { s.receiver with
        messages := s.receiver.messages ++ ms.take whole.length
        buffer := part } := by
    rw [Receiver.recv, if_neg (Nat.not_le.2 hroom), if_neg hne]
    simp only [hdrain]
  rw [hrecv]
  refine { h with stream := ?_, whole := fun hrun ↦ ?_, arrived := ?_ }
  · show s.received ++ s.wire.take k ++ s.wire.drop k <+: _
    rw [harrived]
    exact h.stream
  · show s.received ++ s.wire.take k ++ s.wire.drop k = _
    rw [harrived]
    exact h.whole hrun
  · refine ⟨done ++ first, second, by rw [hwritten, List.append_assoc], ?_, ?_, ?_⟩
    · have htake : List.Forall₂ Decodes first (ms.take whole.length) := by
        rw [hlen]
        exact (List.forall₂_take_append ms first second hms.flip).flip
      exact List.rel_append hdone htake
    · show s.received ++ s.wire.take k = (encodings (done ++ first)).flatten ++ part
      rw [hreceived, List.append_assoc, hbytes, flatten_encodings_append, List.append_assoc,
        ← hfirst]
      rfl
    · rw [encodings, hsecond]
      exact hrest

/-- The end of the connection. -/
theorem Inv.close {s t : Link} (h : s.Inv) (hmalloc : ∀ n, malloc n = true)
    (hstep : s.step malloc .close = some t) : t.Inv := by
  rw [step] at hstep
  obtain ⟨-, heq⟩ := Option.ite_none_right_eq_some.1 hstep
  obtain rfl := Option.some.inj heq
  have hrecv : s.receiver.recv malloc [] = { s.receiver with ended := some false } := by
    rw [Receiver.recv, if_neg (Nat.not_le.2 (h.buffer_lt hmalloc)), if_pos rfl]
  rw [hrecv]
  exact { h with noError := (fun herror ↦ nomatch herror) }

/-- **The invariant is kept** by every step. -/
theorem Inv.step {s t : Link} (h : s.Inv) (hmalloc : ∀ n, malloc n = true) {l : Label}
    (hl : ∀ msg, l = .send msg → msg.InRange) (hstep : s.step malloc l = some t) : t.Inv := by
  cases l with
  | send msg => exact h.send (hl msg rfl) hstep
  | write accepted => exact h.write hmalloc hstep
  | stop =>
    obtain rfl := Option.some.inj hstep
    exact { h with whole := (fun hrun ↦ nomatch hrun) }
  | recv n => exact h.recv hmalloc hstep
  | close => exact h.close hmalloc hstep

/-- The invariant holds in every run. -/
theorem Inv.exec {labels : List Label} {s : Link} (hmalloc : ∀ n, malloc n = true)
    (hlabels : ∀ l ∈ labels, ∀ msg, l = .send msg → msg.InRange)
    (h : exec (Link.step malloc) .init labels = some s) : s.Inv := by
  have hkeep : ∀ (s : Link) (l : Label) (t : Link), (∀ msg, l = .send msg → msg.InRange) →
      s.Inv → s.step malloc l = some t → t.Inv := fun _ _ _ hl hs hstep ↦ hs.step hmalloc hl hstep
  exact exec_invariant_along hkeep (along_of_forall_mem hlabels) Inv.init h

/-- Only a call of `send` with room in the queue adds to what entered it. -/
theorem step_accepted {s t : Link} {l : Label} (hstep : s.step malloc l = some t) :
    t.accepted =
      match l with
      | .send msg => if s.queue.length < capacity then s.accepted ++ [msg] else s.accepted
      | _ => s.accepted := by
  cases l with
  | send msg =>
    rw [Link.step] at hstep
    dsimp only
    by_cases hroom : s.queue.length < capacity
    · rw [if_pos hroom] at hstep ⊢
      obtain rfl := Option.some.inj hstep
      rfl
    · rw [if_neg hroom] at hstep ⊢
      obtain rfl := Option.some.inj hstep
      rfl
  | write accepted =>
    rw [Link.step] at hstep
    split at hstep
    · dsimp only at hstep
      split at hstep <;> obtain rfl := Option.some.inj hstep <;> rfl
    · cases hstep
  | stop =>
    obtain rfl := Option.some.inj hstep
    rfl
  | recv | close =>
    obtain ⟨-, heq⟩ := Option.ite_none_right_eq_some.1 hstep
    obtain rfl := Option.some.inj heq
    rfl

/-- Nothing stays behind when all bytes have arrived. -/
theorem Inv.all_arrived {s : Link} (h : s.Inv) (hrunning : s.running = true) (hwire : s.wire = []) :
    List.Forall₂ Decodes s.written s.receiver.messages ∧ s.receiver.buffer = [] := by
  obtain ⟨done, todo, hwritten, hdone, hreceived, hpart⟩ := h.arrived
  have hwhole := h.whole hrunning
  rw [hwire, List.append_nil, hreceived, hwritten, flatten_encodings_append] at hwhole
  have hbuffer := List.append_cancel_left hwhole
  cases todo with
  | nil =>
    rw [hwritten, List.append_nil]
    exact ⟨hdone, hbuffer⟩
  | cons msg todo =>
    obtain ⟨hpart', hne⟩ : s.receiver.buffer <+: encoding msg ∧ _ := hpart
    rw [encodings, List.map_cons, List.flatten_cons] at hbuffer
    have hlt := length_lt_of_part hpart' hne
    rw [hbuffer, List.length_append] at hlt
    omega

end Link

/-- **Device messages arrive** in the order in which they entered the queue and each once, however
the stream is cut into chunks. Only a full queue drops one; the buffer of the client is never full
and its decoder never fails; and when the sender runs and all bytes have arrived, so have all the
messages it took. -/
theorem device_messages_arrive {labels : List Label} {s : Link} (hmalloc : ∀ n, malloc n = true)
    (hlabels : ∀ l ∈ labels, ∀ msg, l = .send msg → msg.InRange)
    (h : exec (Link.step malloc) .init labels = some s) :
    s.written ++ s.queue = s.accepted ∧ s.queue.length ≤ 16 ∧ (∀ p ∈ s.dropped, p.2 = 16) ∧
    s.receiver.aborted = false ∧ s.receiver.ended ≠ some true ∧
    s.receiver.buffer.length < messageMaxSize ∧
    (∃ done todo, s.written = done ++ todo ∧ List.Forall₂ Decodes done s.receiver.messages) ∧
    (s.running = true → s.wire = [] → List.Forall₂ Decodes s.written s.receiver.messages) := by
  have hinv := Link.Inv.exec hmalloc hlabels h
  obtain ⟨done, todo, hwritten, hdone, -, -⟩ := hinv.arrived
  exact ⟨hinv.fifo, hinv.room, hinv.full, hinv.alive, hinv.noError, hinv.buffer_lt hmalloc,
    ⟨done, todo, hwritten, hdone⟩, fun hrunning hwire ↦ (hinv.all_arrived hrunning hwire).1⟩

/-- An acknowledgement and a report, received in two chunks. -/
theorem device_messages_arrive_chunks :
    ∃ s, exec (Link.step fun _ ↦ true) .init [.send (.ackClipboard 7), .send (.uhidOutput 1 [5]),
        .write 9, .recv 4, .write 6, .recv 100] = some s ∧
      s.written = [.ackClipboard 7, .uhidOutput 1 [5]] ∧
      List.Forall₂ Decodes s.written s.receiver.messages := by
  have hlabels : ∀ l ∈ [Label.send (.ackClipboard 7), .send (.uhidOutput 1 [5]), .write 9,
      .recv 4, .write 6, .recv 100], ∀ msg, l = .send msg → msg.InRange := by
    intro l hl msg hmsg
    subst hmsg
    simp only [List.mem_cons, Label.send.injEq, List.not_mem_nil, or_false, reduceCtorEq] at hl
    obtain rfl | rfl := hl
    · trivial
    · exact (by decide : [(5 : UInt8)].length < 65536)
  obtain ⟨s, hs⟩ : ∃ s, exec (Link.step fun _ ↦ true) .init [.send (.ackClipboard 7),
      .send (.uhidOutput 1 [5]), .write 9, .recv 4, .write 6, .recv 100] = some s ∧
      s.written = [.ackClipboard 7, .uhidOutput 1 [5]] ∧ s.running = true ∧ s.wire = [] :=
    ⟨{ queue := [], running := true, wire := [],
       receiver := ⟨[], [.ackClipboard 7, .uhidOutput 1 [5]], none, false⟩,
       accepted := [.ackClipboard 7, .uhidOutput 1 [5]], dropped := [],
       written := [.ackClipboard 7, .uhidOutput 1 [5]],
       received := [1, 0, 0, 0, 0, 0, 0, 0, 7, 2, 0, 1, 0, 1, 5] },
      by decide +kernel, rfl, rfl, rfl⟩
  obtain ⟨hexec, hwritten, hrunning, hwire⟩ := hs
  obtain ⟨-, -, -, -, -, -, -, harrived⟩ :=
    device_messages_arrive (fun _ ↦ rfl) hlabels hexec
  exact ⟨s, hexec, hwritten, harrived hrunning hwire⟩

end AllRelay.DeviceMessages
