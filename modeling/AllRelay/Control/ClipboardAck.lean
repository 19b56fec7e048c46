import AllRelay.Control.ClientController
import AllRelay.Control.DeviceMessages

/-!
# Acknowledged clipboards

Before the desktop client injects Ctrl+v on a physical keyboard it sets the clipboard of the phone,
and waits for the phone to acknowledge it: the request carries a sequence number, the phone answers
with that number once it has set the clipboard, and `sc_acksync_wait` waits for an acknowledgement
of this number or of a later one. The request goes through the client's control thread
(`Client.Session`), the answer through the phone's sender and the client's receiver
(`DeviceMessages.Link`), and both queues may drop what does not fit.

`System` puts the two together. `ack_is_late` is what the wait relies on: an acknowledgement of a
number or of a later one means that the phone has set that clipboard; and the numbers arrive in
increasing order, as `sc_acksync_ack` asserts.
-/

namespace AllRelay.ClipboardAck

open LabelledSystem Wire Client

/-! ### The system -/

/-- The client, the phone and the two directions of the control socket. -/
structure System where
  /-- The control thread of the client. -/
  client : Client.Session
  /-- `next_sequence` of the input manager. -/
  nextSequence : ℕ
  /-- How many bytes the phone has read. -/
  consumed : ℕ
  /-- The messages that the phone has handled, oldest first. -/
  handled : List ControlMessage
  /-- The device messages. -/
  link : DeviceMessages.Link
deriving DecidableEq

/-- What the threads and the network do. -/
inductive Label where
  /-- Ctrl+v: `set_device_clipboard` with the next sequence number. -/
  | paste (text : Option CString) (memory : Bool)
  /-- A step of the client's control thread or of another of its callers. -/
  | client (l : Client.Label)
  /-- `handleEvent`: the phone reads a message and handles it. -/
  | handle
  /-- A step of the device messages. -/
  | link (l : DeviceMessages.Label)

/-- The sequence number of a request for an acknowledgement. -/
def sequence? : ControlMsg → Option ℕ
  | .setClipboard sequence _ _ => if sequence = 0 then none else some sequence.toNat
  | _ => none

/-- The acknowledgement that the phone sends for a message, in `setClipboard`. -/
def acknowledges : ControlMessage → Option ℤ
  | .setClipboard sequence _ _ => if sequence = 0 then none else some sequence
  | _ => none

/-- The callers keep to their ranges; only `paste` asks for acknowledgements, and only the phone's
`setClipboard` sends them. -/
def Label.Ok : Label → Prop
  | .paste text _ => WellFormed text
  | .client l => l.Ok ∧ ∀ msg memory, l = .push msg memory → sequence? msg = none
  | .handle => True
  | .link l => ∀ msg, l = .send msg → msg.InRange ∧ ∀ n, msg ≠ .ackClipboard n

/-- `sc_acksync_ack`; none if its assertion fails. -/
def acksyncAck (ack sequence : ℕ) : Option ℕ :=
  if ack ≤ sequence then some sequence else none

/-- The sequence number in a message that the client received. -/
def ack? : DeviceMessages.DeviceMsg → Option ℕ
  | .ackClipboard sequence => some sequence
  | _ => none

namespace System

/-- Before the first message. -/
def init : System :=
  ⟨.init, 1, 0, [], .init⟩

/-- `acksync.ack`, after the messages that the client has received; none if an assertion failed. -/
def acksync (s : System) : Option ℕ :=
  (s.link.receiver.messages.filterMap ack?).foldlM acksyncAck 0

variable (malloc : ℕ → Bool)

/-- What the phone sends for a message. -/
def acknowledge (link : DeviceMessages.Link) (m : ControlMessage) : Option DeviceMessages.Link :=
  match acknowledges m with
  | some sequence => link.step malloc (.send (.ackClipboard sequence))
  | none => some link

/-- One step. -/
def step (s : System) (l : Label) : Option System :=
  match l with
  | .paste text memory => do
    let msg := .setClipboard (UInt64.ofNat s.nextSequence) text false
    let client ← s.client.step (.push msg memory)
    let pushed := (s.client.controller.pushMsg msg memory).2
    return { s with
      client := client
      nextSequence := if pushed then s.nextSequence + 1 else s.nextSequence }
  | .client l => do return { s with client := ← s.client.step l }
  | .handle =>
    let socket := s.client.controller.socket
    match ControlMessageReader.read (socket.drop s.consumed) with
    | .ok (m, rest) => do
      let link ← acknowledge malloc s.link m
      return { s with
        consumed := socket.length - rest.length
        handled := s.handled ++ [m]
        link := link }
    | .error _ => none
  | .link l => do return { s with link := ← s.link.step malloc l }

/-! ### The invariant -/

/-- The acknowledgement in a device message. -/
def sent? : DeviceMessages.DeviceMessage → Option ℤ
  | .ackClipboard sequence => some sequence
  | _ => none

/-- The invariant. -/
structure Inv (s : System) : Prop where
  /-- The invariant of the control thread. -/
  client : s.client.Inv
  /-- The invariant of the device messages. -/
  link : s.link.Inv
  /-- Sequence numbers start at 1. -/
  pos : 1 ≤ s.nextSequence
  /-- The requests that were accepted are numbered without a gap. -/
  requested : s.client.accepted.filterMap sequence? = List.range' 1 (s.nextSequence - 1)
  /-- The phone has handled the first messages that the client took. -/
  read : ∃ done todo, s.client.taken = done ++ todo ∧
    List.Forall₂ ControlMsg.Decodes done s.handled ∧
    s.consumed = (Session.encodings done).length ∧
    Session.encodings done <+: s.client.controller.socket
  /-- The acknowledgements that entered the sender's queue are those of requests handled, in their
  order. -/
  acks : (s.link.accepted.filterMap sent?).Sublist (s.handled.filterMap acknowledges)

theorem Inv.init : System.init.Inv where
  client := .init
  link := .init
  pos := Nat.le_refl 1
  requested := rfl
  read := ⟨[], [], rfl, .nil, rfl, List.nil_prefix⟩
  acks := List.Sublist.slnil

/-- What the phone has read stays read when the client goes on. -/
theorem Inv.read_of_grows {s : System} (h : s.Inv) {client : Client.Session}
    (hgrows : s.client.taken <+: client.taken ∧
      s.client.controller.socket <+: client.controller.socket) :
    ∃ done todo, client.taken = done ++ todo ∧
      List.Forall₂ ControlMsg.Decodes done s.handled ∧
      s.consumed = (Session.encodings done).length ∧
      Session.encodings done <+: client.controller.socket := by
  obtain ⟨done, todo, htaken, hdone, hconsumed, hsocket⟩ := h.read
  obtain ⟨more, hmore⟩ := hgrows.1
  refine ⟨done, todo ++ more, ?_, hdone, hconsumed, hsocket.trans hgrows.2⟩
  rw [← hmore, htaken, List.append_assoc]

variable {malloc}

/-- Ctrl+v. -/
theorem Inv.paste {s t : System} (h : s.Inv) {text : Option CString} {memory : Bool}
    (htext : WellFormed text) (hbound : s.nextSequence < 2 ^ 63)
    (hstep : s.step malloc (.paste text memory) = some t) : t.Inv := by
  obtain ⟨client, hclient, heq⟩ := Option.bind_eq_some_iff.1 hstep
  obtain rfl := Option.some.inj heq
  have hpos := h.pos
  generalize hmsg : ControlMsg.setClipboard (UInt64.ofNat s.nextSequence) text false = msg
    at hclient ⊢
  have hok : msg.type ≠ 21 ∧ msg.InRange ∧ msg.Fractions := by
    subst hmsg
    exact ⟨by simp [ControlMsg.type], htext, trivial⟩
  have hsequence : sequence? msg = some s.nextSequence := by
    subst hmsg
    have hlt : s.nextSequence < 2 ^ 64 := by omega
    have htoNat : (UInt64.ofNat s.nextSequence).toNat = s.nextSequence :=
      UInt64.toNat_ofNat_of_lt' hlt
    have hne : UInt64.ofNat s.nextSequence ≠ 0 := by
      intro hzero
      rw [hzero] at htoNat
      exact absurd htoNat (Nat.ne_of_lt hpos)
    rw [sequence?, if_neg hne, htoNat]
  have haccepted := Session.step_accepted hclient
  dsimp only at haccepted
  generalize (s.client.controller.pushMsg msg memory).2 = pushed at haccepted ⊢
  refine { h with
    client := h.client.push hok hclient
    pos := ?_
    requested := ?_
    read := h.read_of_grows (Session.step_grows hclient) }
  · show 1 ≤ if pushed = true then s.nextSequence + 1 else s.nextSequence
    split <;> omega
  · show client.accepted.filterMap sequence? =
      List.range' 1 ((if pushed = true then s.nextSequence + 1 else s.nextSequence) - 1)
    rw [haccepted]
    cases pushed with
    | true =>
      obtain ⟨n, hn⟩ := Nat.exists_eq_add_of_le hpos
      rw [if_pos rfl, if_pos rfl, List.filterMap_append, h.requested, Nat.add_sub_cancel,
        List.filterMap_cons_some hsequence, List.filterMap_nil, hn, Nat.add_sub_cancel_left,
        Nat.add_comm 1 n, List.range'_concat, Nat.one_mul, Nat.add_comm]
    | false => exact h.requested

/-- Another step of the client. -/
theorem Inv.step_client {s t : System} (h : s.Inv) {l : Client.Label}
    (hok : l.Ok ∧ ∀ msg memory, l = .push msg memory → sequence? msg = none)
    (hstep : s.step malloc (.client l) = some t) : t.Inv := by
  obtain ⟨client, hclient, heq⟩ := Option.bind_eq_some_iff.1 hstep
  obtain rfl := Option.some.inj heq
  refine { h with
    client := h.client.step hok.1 hclient
    requested := ?_
    read := h.read_of_grows (Session.step_grows hclient) }
  have haccepted := Session.step_accepted hclient
  show client.accepted.filterMap sequence? = _
  rw [← h.requested, haccepted]
  cases l with
  | push msg memory =>
    dsimp only
    split
    · rw [List.filterMap_append, List.filterMap_cons_none (hok.2 msg memory rfl),
        List.filterMap_nil, List.append_nil]
    · rfl
  | _ => rfl

/-- A step of the device messages. -/
theorem Inv.step_link {s t : System} (h : s.Inv) (hmalloc : ∀ n, malloc n = true)
    {l : DeviceMessages.Label}
    (hok : ∀ msg, l = .send msg → msg.InRange ∧ ∀ n, msg ≠ .ackClipboard n)
    (hstep : s.step malloc (.link l) = some t) : t.Inv := by
  obtain ⟨link, hlink, heq⟩ := Option.bind_eq_some_iff.1 hstep
  obtain rfl := Option.some.inj heq
  refine { h with
    link := h.link.step hmalloc (fun msg hmsg ↦ (hok msg hmsg).1) hlink
    acks := ?_ }
  have haccepted := DeviceMessages.Link.step_accepted hlink
  have hsame : link.accepted.filterMap sent? = s.link.accepted.filterMap sent? := by
    rw [haccepted]
    cases l with
    | send msg =>
      have hnone : sent? msg = none := by
        cases msg with
        | ackClipboard n => exact absurd rfl ((hok _ rfl).2 n)
        | clipboard | uhidOutput => rfl
      dsimp only
      split
      · rw [List.filterMap_append, List.filterMap_cons_none hnone, List.filterMap_nil,
          List.append_nil]
      · rfl
    | _ => rfl
  show (link.accepted.filterMap sent?).Sublist _
  rw [hsame]
  exact h.acks

/-- The phone reads the message that follows those it has handled. -/
theorem Inv.next {s : System} (h : s.Inv) {m : ControlMessage} {rest : List UInt8}
    (hread : ControlMessageReader.read (s.client.controller.socket.drop s.consumed) =
      .ok (m, rest)) :
    ∃ done msg todo, s.client.taken = done ++ msg :: todo ∧
      List.Forall₂ ControlMsg.Decodes done s.handled ∧ msg.Decodes m ∧
      s.client.controller.socket.length - rest.length =
        (Session.encodings (done ++ [msg])).length ∧
      Session.encodings (done ++ [msg]) <+: s.client.controller.socket := by
  obtain ⟨done, todo, htaken, hdone, hconsumed, more, hsocket⟩ := h.read
  have hdrop : s.client.controller.socket.drop s.consumed = more := by
    rw [← hsocket, hconsumed, List.drop_left]
  rw [hdrop] at hread
  have hinit := h.client.carries.isPrefix
  rw [← hsocket, htaken, Session.encodings, Session.encodings, List.flatMap_append] at hinit
  replace hinit := (List.prefix_append_right_inj _).1 hinit
  cases todo with
  | nil =>
    obtain rfl := List.prefix_nil.1 hinit
    cases hread
  | cons msg todo =>
    have hmem : msg ∈ s.client.taken := by
      rw [htaken]
      simp
    obtain ⟨hrange, hfractions⟩ := h.client.mem_taken hmem
    obtain ⟨bytes, hbytes⟩ :=
      Option.isSome_iff_exists.1 ((serialize_isSome_iff hrange).2 hfractions)
    obtain ⟨-, m', hm', hparses⟩ := parses_serialize hrange hbytes
    have hencoded : msg.serialize.getD [] = bytes := by rw [hbytes, Option.getD_some]
    rw [List.flatMap_cons, hencoded] at hinit
    rcases Nat.lt_or_ge more.length bytes.length with hlt | hge
    · have hpart : more <+: bytes :=
        List.prefix_of_prefix_length_le hinit (List.prefix_append _ _) hlt.le
      have hne : more ≠ bytes := by
        rintro rfl
        exact absurd hlt (lt_irrefl _)
      have hwait := ControlMessageReader.streaming_read.eof_of_prefix hparses.eq hpart hne
      rw [hwait] at hread
      cases hread
    · obtain ⟨tail, rfl⟩ :=
        List.prefix_of_prefix_length_le (List.prefix_append bytes _) hinit hge
      rw [hparses tail, Except.ok.injEq, Prod.mk.injEq] at hread
      obtain ⟨rfl, rfl⟩ := hread
      refine ⟨done, msg, todo, htaken, hdone, hm', ?_, ?_⟩
      · have hlen : (Session.encodings done ++ bytes ++ tail).length =
            (Session.encodings done ++ bytes).length + tail.length := List.length_append
        rw [Session.encodings_append_singleton done hbytes, ← hsocket, ← List.append_assoc, hlen,
          Nat.add_sub_cancel]
      · rw [Session.encodings_append_singleton done hbytes, ← hsocket, ← List.append_assoc]
        exact List.prefix_append _ _

/-- The phone reads a message and handles it. -/
theorem Inv.handle {s t : System} (h : s.Inv) (hmalloc : ∀ n, malloc n = true)
    (hstep : s.step malloc .handle = some t) : t.Inv := by
  rw [System.step] at hstep
  split at hstep
  · next m rest hread =>
    obtain ⟨link, hlink, heq⟩ := Option.bind_eq_some_iff.1 hstep
    obtain rfl := Option.some.inj heq
    obtain ⟨done, msg, todo, htaken, hdone, hm, hconsumed, hsocket⟩ := h.next hread
    rw [acknowledge] at hlink
    refine { h with link := ?_, read := ?_, acks := ?_ }
    · split at hlink
      · refine h.link.step hmalloc (fun msg hmsg ↦ ?_) hlink
        cases hmsg
        trivial
      · exact Option.some.inj hlink ▸ h.link
    · refine ⟨done ++ [msg], todo, ?_, List.rel_append hdone (.cons hm .nil), hconsumed, hsocket⟩
      rw [List.append_assoc]
      exact htaken
    · show (link.accepted.filterMap sent?).Sublist ((s.handled ++ [m]).filterMap acknowledges)
      rw [List.filterMap_append]
      split at hlink
      · next sequence hsequence =>
        rw [List.filterMap_cons_some hsequence, List.filterMap_nil,
          DeviceMessages.Link.step_accepted hlink]
        dsimp only
        split
        · rw [List.filterMap_append]
          exact h.acks.append (List.Sublist.refl _)
        · exact h.acks.trans (List.sublist_append_left _ _)
      · obtain rfl := Option.some.inj hlink
        exact h.acks.trans (List.sublist_append_left _ _)
  · cases hstep

/-- **The invariant is kept** by every step, as long as the numbers last. -/
theorem Inv.step {s t : System} (h : s.Inv) (hmalloc : ∀ n, malloc n = true) {l : Label}
    (hok : l.Ok) (hbound : s.nextSequence < 2 ^ 63) (hstep : s.step malloc l = some t) : t.Inv := by
  cases l with
  | paste => exact h.paste hok hbound hstep
  | client => exact h.step_client hok hstep
  | handle => exact h.handle hmalloc hstep
  | link => exact h.step_link hmalloc hok hstep

/-- The numbers only grow. -/
theorem nextSequence_le {s t : System} {l : Label} (hstep : s.step malloc l = some t) :
    s.nextSequence ≤ t.nextSequence := by
  cases l with
  | paste =>
    obtain ⟨client, -, heq⟩ := Option.bind_eq_some_iff.1 hstep
    obtain rfl := Option.some.inj heq
    show s.nextSequence ≤ if _ then s.nextSequence + 1 else s.nextSequence
    split
    · exact Nat.le_succ _
    · exact Nat.le_refl _
  | client | link =>
    obtain ⟨_, -, heq⟩ := Option.bind_eq_some_iff.1 hstep
    obtain rfl := Option.some.inj heq
    exact Nat.le_refl _
  | handle =>
    rw [System.step] at hstep
    split at hstep
    · obtain ⟨link, -, heq⟩ := Option.bind_eq_some_iff.1 hstep
      obtain rfl := Option.some.inj heq
      exact Nat.le_refl _
    · cases hstep

/-- The invariant holds in every run, as long as the numbers last. -/
theorem Inv.exec {labels : List Label} {s : System} (hmalloc : ∀ n, malloc n = true)
    (hok : ∀ l ∈ labels, l.Ok) (hbound : s.nextSequence < 2 ^ 63)
    (h : exec (System.step malloc) .init labels = some s) : s.Inv := by
  have hkeep : ∀ (s : System) (l : Label) (t : System), l.Ok →
      (s.nextSequence < 2 ^ 63 → s.Inv) → s.step malloc l = some t →
      (t.nextSequence < 2 ^ 63 → t.Inv) := by
    intro s l t hl hs hstep ht
    have hlt := (nextSequence_le hstep).trans_lt ht
    exact (hs hlt).step hmalloc hl hlt hstep
  exact exec_invariant_along hkeep (along_of_forall_mem hok) (fun _ ↦ Inv.init) h hbound

/-! ### Sequence numbers -/

/-- The phone acknowledges the number it was asked to. -/
theorem acknowledges_eq {msg : ControlMsg} {m : ControlMessage} (h : msg.Decodes m)
    (hlt : ∀ n, sequence? msg = some n → n < 2 ^ 63) :
    acknowledges m = (sequence? msg).map fun n : ℕ ↦ (n : ℤ) := by
  cases msg with
  | setClipboard sequence text paste =>
    obtain ⟨units, -, rfl⟩ := h
    rw [sequence?] at hlt ⊢
    by_cases hzero : sequence = 0
    · have hbmod : Int.bmod ((0 : UInt64).toNat : ℤ) (2 ^ 64) = 0 := by decide +kernel
      subst hzero
      rw [hbmod]
      rfl
    · rw [if_neg hzero] at hlt ⊢
      have hsmall := hlt _ rfl
      have hbmod : Int.bmod sequence.toNat (2 ^ 64) = sequence.toNat :=
        Int.bmod_eq_of_le (by omega) (by omega)
      have hne : (sequence.toNat : ℤ) ≠ 0 := by
        intro h
        exact hzero (UInt64.toNat_inj.1 (by exact_mod_cast h))
      rw [hbmod, acknowledges, if_neg hne]
      rfl
  | injectKeycode | backOrScreenOn | getClipboard | setDisplayPower | uhidInput | uhidDestroy
  | cameraSetTorch | resizeDisplay | expandNotificationPanel | expandSettingsPanel | collapsePanels
  | rotateDevice | openHardKeyboardSettings | resetVideo | cameraZoomIn | cameraZoomOut =>
    subst h
    rfl
  | injectText | uhidCreate | startApp =>
    obtain ⟨units, -, rfl⟩ := h
    rfl
  | injectTouchEvent =>
    obtain ⟨v, -, rfl⟩ := h
    rfl
  | injectScrollEvent =>
    obtain ⟨i, j, -, -, rfl⟩ := h
    rfl

theorem filterMap_acknowledges {msgs : List ControlMsg} {ms : List ControlMessage}
    (h : List.Forall₂ ControlMsg.Decodes msgs ms)
    (hlt : ∀ n ∈ msgs.filterMap sequence?, n < 2 ^ 63) :
    ms.filterMap acknowledges = (msgs.filterMap sequence?).map fun n : ℕ ↦ (n : ℤ) := by
  induction h with
  | nil => rfl
  | @cons msg m msgs ms hm _ ih =>
    have heq := acknowledges_eq hm fun n hn ↦
      hlt n (List.mem_filterMap.2 ⟨msg, List.mem_cons_self, hn⟩)
    have hrest := ih fun n hn ↦ by
      obtain ⟨msg', hmsg', hn⟩ := List.mem_filterMap.1 hn
      exact hlt n (List.mem_filterMap.2 ⟨msg', List.mem_cons_of_mem _ hmsg', hn⟩)
    cases hs : sequence? msg with
    | none =>
      rw [hs] at heq
      rw [List.filterMap_cons_none heq, List.filterMap_cons_none hs, hrest]
    | some n =>
      rw [hs] at heq
      rw [List.filterMap_cons_some heq, List.filterMap_cons_some hs, hrest]
      rfl

/-- The client receives the number that the phone sent. -/
theorem filterMap_ack {msgs : List DeviceMessages.DeviceMessage}
    {ms : List DeviceMessages.DeviceMsg} (h : List.Forall₂ DeviceMessages.Decodes msgs ms) :
    ms.filterMap ack? = (msgs.filterMap sent?).map fun n ↦ (n % 2 ^ 64).toNat := by
  induction h with
  | nil => rfl
  | @cons msg m msgs ms hm _ ih =>
    cases msg with
    | clipboard text =>
      obtain ⟨p, -, rfl⟩ := hm
      exact ih
    | ackClipboard n =>
      obtain rfl : m = _ := hm
      exact congrArg _ ih
    | uhidOutput id data =>
      obtain rfl : m = _ := hm
      exact ih

/-- A size asks for no acknowledgement. -/
theorem size?_of_sequence {msg : ControlMsg} {n : ℕ} (h : sequence? msg = some n) :
    msg.size? = none := by
  cases msg with
  | resizeDisplay => cases h
  | _ => rfl

theorem filterMap_sequence_filter (msgs : List ControlMsg) :
    (msgs.filter (·.size?.isNone)).filterMap sequence? = msgs.filterMap sequence? := by
  rw [List.filterMap_filter]
  refine List.filterMap_congr fun msg _ ↦ ?_
  split
  · rfl
  · next hsize =>
    cases hs : sequence? msg with
    | none => rfl
    | some n => exact absurd (by rw [size?_of_sequence hs]; rfl) hsize

/-- A message was decoded. -/
theorem exists_decoded {msgs : List ControlMsg} {ms : List ControlMessage}
    (h : List.Forall₂ ControlMsg.Decodes msgs ms) {msg : ControlMsg} (hmsg : msg ∈ msgs) :
    ∃ m ∈ ms, msg.Decodes m := by
  induction h with
  | nil => cases hmsg
  | @cons msg' m msgs ms hm _ ih =>
    rcases List.mem_cons.1 hmsg with rfl | hmsg
    · exact ⟨m, List.mem_cons_self, hm⟩
    · obtain ⟨m', hm', hdecodes⟩ := ih hmsg
      exact ⟨m', List.mem_cons_of_mem _ hm', hdecodes⟩

/-- **The assertion of `sc_acksync_ack` holds** on increasing numbers. -/
theorem foldlM_acksyncAck {a : ℕ} {sequences : List ℕ}
    (h : (a :: sequences).Pairwise (· < ·)) :
    ∃ b ∈ a :: sequences, sequences.foldlM acksyncAck a = some b := by
  induction sequences generalizing a with
  | nil => exact ⟨a, List.mem_singleton_self a, rfl⟩
  | cons n sequences ih =>
    obtain ⟨ha, hrest⟩ := List.pairwise_cons.1 h
    obtain ⟨b, hb, hfold⟩ := ih hrest
    refine ⟨b, List.mem_cons_of_mem _ hb, ?_⟩
    have hle : a ≤ n := (ha n List.mem_cons_self).le
    rw [List.foldlM_cons, acksyncAck, if_pos hle]
    exact hfold

end System

/-- **An acknowledgement comes after the fact.** The numbers reach `sc_acksync_ack` in increasing
order, so its assertion holds; and once the number acknowledged is `n` or later, the phone has
handled the request with number `n`, which set its clipboard to the text of that request. -/
theorem ack_is_late {malloc : ℕ → Bool} (hmalloc : ∀ n, malloc n = true) {labels : List Label}
    {s : System} (hok : ∀ l ∈ labels, l.Ok) (hbound : s.nextSequence < 2 ^ 63)
    (h : exec (System.step malloc) .init labels = some s) :
    ∃ a, s.acksync = some a ∧ a < s.nextSequence ∧
      ∀ n, 1 ≤ n → n ≤ a → ∃ msg ∈ s.client.accepted, sequence? msg = some n ∧
        ∃ m ∈ s.handled, msg.Decodes m := by
  have hinv := System.Inv.exec hmalloc hok hbound h
  obtain ⟨done, todo, htaken, hdone, -, -⟩ := hinv.read
  obtain ⟨arrived, rest, hwritten, harrived, -, -⟩ := hinv.link.arrived
  -- The numbers of the messages that the phone has handled are the first ones.
  have hinit : done.filterMap sequence? <+: List.range' 1 (s.nextSequence - 1) := by
    rw [← hinv.requested, ← hinv.client.fifo, List.filterMap_append,
      System.filterMap_sequence_filter, htaken, List.filterMap_append, List.append_assoc]
    exact List.prefix_append _ _
  have hlen := hinit.length_le
  rw [List.length_range'] at hlen
  have hrange : done.filterMap sequence? = List.range' 1 (done.filterMap sequence?).length :=
    (List.prefix_iff_eq_take.1 hinit).trans (List.take_range'_of_length_ge hlen)
  generalize (done.filterMap sequence?).length = k at hlen hrange
  -- The numbers that the client received are among those, in their order.
  have hsmall : ∀ n ∈ List.range' 1 k, n < 2 ^ 63 := fun n hn ↦ by
    rw [List.mem_range'_1] at hn
    omega
  have hsent : (arrived.filterMap System.sent?).Sublist
      ((List.range' 1 k).map fun n : ℕ ↦ (n : ℤ)) := by
    have hacks := hinv.acks
    rw [← hinv.link.fifo, hwritten, System.filterMap_acknowledges hdone (hrange ▸ hsmall),
      hrange, List.filterMap_append, List.filterMap_append, List.append_assoc] at hacks
    exact (List.sublist_append_left _ _).trans hacks
  have hreceived : (s.link.receiver.messages.filterMap ack?).Sublist (List.range' 1 k) := by
    have hmap := hsent.map fun n : ℤ ↦ (n % 2 ^ 64).toNat
    have hid : (List.range' 1 k).map ((fun n : ℤ ↦ (n % 2 ^ 64).toNat) ∘ fun n : ℕ ↦ (n : ℤ)) =
        List.range' 1 k := by
      refine (List.map_congr_left fun n hn ↦ ?_).trans (List.map_id _)
      have hlt := hsmall n hn
      show ((n : ℤ) % 2 ^ 64).toNat = n
      omega
    rw [← System.filterMap_ack harrived, List.map_map, hid] at hmap
    exact hmap
  have hsorted : (0 :: s.link.receiver.messages.filterMap ack?).Pairwise (· < ·) := by
    have hcons : (List.range' 0 (k + 1)).Pairwise (· < ·) := List.pairwise_lt_range'
    rw [List.range'_succ] at hcons
    exact hcons.sublist (hreceived.cons_cons 0)
  obtain ⟨a, ha, hfold⟩ := System.foldlM_acksyncAck hsorted
  have hle : a ≤ k := by
    rcases List.mem_cons.1 ha with rfl | ha
    · exact Nat.zero_le k
    · have hmem := hreceived.subset ha
      rw [List.mem_range'_1] at hmem
      omega
  have hpos := hinv.pos
  refine ⟨a, hfold, by omega, fun n hone hn ↦ ?_⟩
  have hmem : n ∈ done.filterMap sequence? := by
    rw [hrange, List.mem_range'_1]
    omega
  obtain ⟨msg, hmsg, hsequence⟩ := List.mem_filterMap.1 hmem
  have haccepted : msg ∈ s.client.accepted := by
    rw [← hinv.client.fifo]
    refine List.mem_append_left _ (List.mem_filter.2 ⟨?_, ?_⟩)
    · rw [htaken]
      exact List.mem_append_left _ hmsg
    · rw [System.size?_of_sequence hsequence]
      rfl
  obtain ⟨m, hm, hdecodes⟩ := System.exists_decoded hdone hmsg
  exact ⟨msg, haccepted, hsequence, m, hm, hdecodes⟩

/-- One Ctrl+v over the text "A", acknowledged. -/
theorem ack_is_late_paste :
    ∃ s, exec (System.step fun _ ↦ true) .init [.paste (some ⟨[65], by decide⟩) true, .client .loop,
        .client (.send 15), .handle, .link (.write 9), .link (.recv 9)] = some s ∧
      s.acksync = some 1 ∧ ∃ msg ∈ s.client.accepted, sequence? msg = some 1 ∧
        ∃ m ∈ s.handled, msg.Decodes m := by
  have hok : ∀ l ∈ [Label.paste (some ⟨[65], by decide⟩) true, .client .loop,
      .client (.send 15), .handle, .link (.write 9), .link (.recv 9)], l.Ok := by
    intro l hl
    simp only [List.mem_cons, List.not_mem_nil, or_false] at hl
    obtain rfl | rfl | rfl | rfl | rfl | rfl := hl
    · intro utf8 hutf8
      obtain rfl := Option.some.inj hutf8
      exact ⟨['A'], rfl⟩
    · exact ⟨trivial, fun msg memory h ↦ by cases h⟩
    · exact ⟨trivial, fun msg memory h ↦ by cases h⟩
    · trivial
    · exact fun msg h ↦ by cases h
    · exact fun msg h ↦ by cases h
  have hexec : (exec (System.step fun _ ↦ true) .init [.paste (some ⟨[65], by decide⟩) true,
      .client .loop, .client (.send 15), .handle, .link (.write 9), .link (.recv 9)]).any
        (fun s ↦ s.acksync = some 1 ∧ s.nextSequence = 2) = true := by decide +kernel
  obtain ⟨s, hs, hfinal⟩ := (Option.any_eq_true _ _).1 hexec
  obtain ⟨hack, hnext⟩ := of_decide_eq_true hfinal
  have hbound : s.nextSequence < 2 ^ 63 := by
    rw [hnext]
    norm_num
  obtain ⟨a, ha, -, hlate⟩ := ack_is_late (fun _ ↦ rfl) hok hbound hs
  obtain rfl := Option.some.inj (ha.symm.trans hack)
  exact ⟨s, hs, hack, hlate 1 (Nat.le_refl 1) (Nat.le_refl 1)⟩

end AllRelay.ClipboardAck
