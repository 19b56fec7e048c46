import AllRelay.Library.LinkedMap
import AllRelay.Library.Regex
import AllRelay.Phone.AdbKeys
import AllRelay.Phone.Kotlin
import Mathlib.Algebra.Group.Int.Defs

/-!
# The parser of device states

`FoldStateParser.parseSupportedStates` reads the states of a phone from what `cmd device_state
print-states` or `dumpsys device_state` prints, with a regular expression for each. The second is
tried only if the first finds nothing.

The first expression finds the states in both texts, and lets any text of a line stand between an
identifier and a name. So a state without a name is passed over if it has a line of its own, but
takes the name of the next state that has one if they share a line (`parseSupportedStates_iff`).

The classes of both expressions leave out an ASCII character or consist of digits of the basic
plane, so it makes no difference that they are matched by UTF-16 unit here.
-/

open Regex

namespace AllRelay.FoldStates

open AdbKeys (Platform)
open Kotlin

/-! ### The parser -/

/-- `'`. -/
def quote : UInt16 := 0x27

/-- `\n`. -/
def newline : UInt16 := 0x0A

/-- `\d`: on Android, the digits of every script. -/
def regexDigit : Platform → UInt16 → Bool
  | .jvm, c => 0x30 ≤ c && c ≤ 0x39
  | .android, c => (digitOf c).isSome

/-- The end of `PRINT_STATES_PATTERN`. -/
def namePattern : Pattern UInt16 :=
  [.literal (ascii "name='"), .plus true (· ≠ quote), .literal [quote]]

/-- `PRINT_STATES_PATTERN`. -/
def printStatesPattern (platform : Platform) : Pattern UInt16 :=
  .literal (ascii "identifier=") :: .plus true (regexDigit platform) ::
    .lazyStar (· ≠ newline) :: namePattern

/-- `DUMPSYS_STATES_PATTERN`. -/
def dumpsysStatesPattern (platform : Platform) : Pattern UInt16 :=
  [.plus true (regexDigit platform), .literal (ascii "=DeviceState\x7bidentifier="),
    .plus false (regexDigit platform), .literal (ascii ", name='"), .plus true (· ≠ quote),
    .literal [quote]]

/-- What a loop of `parseSupportedStates` does with the groups of a match. -/
def enter (map : LinkedMap ℤ Text) (groups : List Text) : LinkedMap ℤ Text :=
  match groups with
  | [id, name] =>
    match toIntOrNull id with
    | some id => map.put id name
    | none => map
  | _ => map

/-- `parseSupportedStates`. -/
def parseSupportedStates (platform : Platform) (text : Option Text) : LinkedMap ℤ Text :=
  match text with
  | none => .empty
  | some text =>
    if text = [] then .empty
    else
      let map := (findAll (printStatesPattern platform) 0 text).foldl enter .empty
      if map.entries = [] then (findAll (dumpsysStatesPattern platform) 0 text).foldl enter map
      else map

/-! ### What is printed -/

/-- The decimal digits of a number. -/
def decimalDigits (n : ℕ) : Text :=
  if n < 10 then [UInt16.ofNat (0x30 + n)]
  else decimalDigits (n / 10) ++ [UInt16.ofNat (0x30 + n % 10)]

/-- A number, as `Integer.toString` prints it. -/
def decimal (n : ℤ) : Text :=
  if n < 0 then 0x2D :: decimalDigits n.natAbs else decimalDigits n.natAbs

/-- `true` or `false`. -/
def boolean (b : Bool) : Text :=
  if b then ascii "true" else ascii "false"

/-- A device state. -/
structure DeviceState where
  identifier : ℤ
  name : Text
  appAccessible : Bool
  cancelWhenRequesterNotOnTop : Bool
  int : -2 ^ 31 ≤ identifier ∧ identifier < 2 ^ 31
  quote_not_mem : quote ∉ name
  newline_not_mem : newline ∉ name

namespace DeviceState

variable (s : DeviceState)

/-- A state with the attributes behind its name. -/
def print (attributes : Text) : Text :=
  ascii "DeviceState\x7bidentifier=" ++ decimal s.identifier ++ ascii ", name='" ++ s.name ++
    quote :: attributes ++ ascii "\x7d"

/-- The attributes of a state. -/
def attributes : Text :=
  ascii ", app_accessible=" ++ boolean s.appAccessible ++
    ascii ", cancel_when_requester_not_on_top=" ++ boolean s.cancelWhenRequesterNotOnTop

/-- A state and its identifier, in a map. -/
def entry : Text :=
  decimal s.identifier ++ ascii "=" ++ s.print []

end DeviceState

/-- States on lines of their own, each behind its `lead` and followed by a unit `close`. -/
def lines (close : UInt16) (states : List (Text × DeviceState)) : Text :=
  states.flatMap fun (lead, s) ↦ lead ++ s.print s.attributes ++ [close, newline]

/-- What `print-states` prints. -/
def printStates (states : List DeviceState) : Text :=
  ascii "Supported states: [\n" ++ lines 0x2C (states.map fun s ↦ (ascii "  ", s)) ++ ascii "]\n"

/-- The entries of a map, the first of them behind `lead`. -/
def entries (lead : Text) : List DeviceState → Text
  | [] => []
  | s :: states => lead ++ s.entry ++ entries (ascii ", ") states

/-- Text that mentions no state. -/
structure Plain (text : Text) : Prop where
  identifier : ¬ascii "identifier=" <:+: text
  quote : quote ∉ text

/-- What `dumpsys` prints around the map: lines that mention a state, the text before the map and
the text after its line. -/
structure Surroundings (states : List DeviceState) where
  before : List (Text × DeviceState)
  label : Text
  after : Text
  before_mem : ∀ line ∈ before, Plain line.1 ∧ line.2 ∈ states
  label_plain : Plain label
  after_plain : Plain after

/-- What `dumpsys` prints. -/
def Surroundings.dumpsys {states : List DeviceState} (around : Surroundings states) : Text :=
  lines 0x5D around.before ++ around.label ++ ascii "\x7b" ++ entries [] states ++
    ascii "\x7d\n" ++ around.after

/-- The map from identifiers to names, of the states that have one. -/
def Parsed (map : LinkedMap ℤ Text) (states : List DeviceState) : Prop :=
  ∀ k v, (k, v) ∈ map.entries ↔ ∃ s ∈ states, s.identifier = k ∧ s.name = v ∧ v ≠ []

/-- The states with a name have no sign. -/
def Unsigned (states : List DeviceState) : Prop :=
  ∀ s ∈ states, s.name ≠ [] → 0 ≤ s.identifier

/-- No state with a name stands behind one without name and sign. -/
def Separated (states : List DeviceState) : Prop :=
  states.Pairwise fun s t ↦ s.name = [] → 0 ≤ s.identifier → t.name = []

instance (states : List DeviceState) : Decidable (Unsigned states) :=
  inferInstanceAs (Decidable (∀ s ∈ states, s.name ≠ [] → 0 ≤ s.identifier))

instance (states : List DeviceState) : Decidable (Separated states) :=
  inferInstanceAs (Decidable (states.Pairwise _))

variable {platform : Platform} {n : ℕ} {id : ℤ} {c d : UInt16} {s t : DeviceState}
  {states : List DeviceState} {name gap line stop lead rest text attributes : Text}

/-! ### Numbers -/

theorem digit_spec (platform : Platform) (hd : n < 10) :
    digitOf (UInt16.ofNat (0x30 + n)) = some n ∧
    regexDigit platform (UInt16.ofNat (0x30 + n)) = true ∧
      0x30 ≤ UInt16.ofNat (0x30 + n) ∧ UInt16.ofNat (0x30 + n) ≤ 0x39 := by
  have hall : ∀ d < 10, digitOf (UInt16.ofNat (0x30 + d)) = some d ∧
      regexDigit .jvm (UInt16.ofNat (0x30 + d)) = true ∧
        regexDigit .android (UInt16.ofNat (0x30 + d)) = true ∧
          0x30 ≤ UInt16.ofNat (0x30 + d) ∧ UInt16.ofNat (0x30 + d) ≤ 0x39 := by decide
  obtain ⟨hdigit, hjvm, handroid, hbounds⟩ := hall n hd
  cases platform with
  | jvm => exact ⟨hdigit, hjvm, hbounds⟩
  | android => exact ⟨hdigit, handroid, hbounds⟩

theorem digitsValue_append (n : ℕ) (a b : Text) :
    digitsValue n (a ++ b) = (digitsValue n a).bind fun m ↦ digitsValue m b := by
  induction a generalizing n with
  | nil => rfl
  | cons c a ih =>
    rw [List.cons_append, digitsValue, digitsValue]
    cases digitOf c with
    | none => rfl
    | some digit => exact ih _

/-- Digits are read back. -/
theorem digitsValue_decimalDigits (n : ℕ) : digitsValue 0 (decimalDigits n) = some n := by
  induction n using decimalDigits.induct with
  | case1 n h =>
    rw [decimalDigits, if_pos h, digitsValue, (digit_spec .jvm h).1]
    show some (10 * 0 + n) = some n
    rw [Nat.mul_zero, Nat.zero_add]
  | case2 n h ih =>
    have hdigit := (digit_spec .jvm (Nat.mod_lt n (by decide : 0 < 10))).1
    rw [decimalDigits, if_neg h, digitsValue_append, ih, Option.bind_some, digitsValue, hdigit]
    show some (10 * (n / 10) + n % 10) = some n
    rw [Nat.div_add_mod]

theorem decimalDigits_ne_nil (n : ℕ) : decimalDigits n ≠ [] := by
  rw [decimalDigits]
  split
  · exact List.cons_ne_nil _ _
  · exact List.append_ne_nil_of_right_ne_nil _ (List.cons_ne_nil _ _)

theorem mem_decimalDigits (platform : Platform) (h : c ∈ decimalDigits n) :
    regexDigit platform c = true ∧ 0x30 ≤ c ∧ c ≤ 0x39 := by
  induction n using decimalDigits.induct with
  | case1 n hn =>
    rw [decimalDigits, if_pos hn, List.mem_singleton] at h
    exact h ▸ (digit_spec platform hn).2
  | case2 n hn ih =>
    rw [decimalDigits, if_neg hn, List.mem_append, List.mem_singleton] at h
    obtain h | h := h
    · exact ih h
    · exact h ▸ (digit_spec platform (Nat.mod_lt n (by decide))).2

theorem decimal_of_nonneg (h : 0 ≤ id) : decimal id = decimalDigits id.natAbs :=
  if_neg (Int.not_lt.2 h)

theorem decimal_ne_nil (h : 0 ≤ id) : decimal id ≠ [] := by
  rw [decimal_of_nonneg h]
  exact decimalDigits_ne_nil _

theorem regexDigit_of_mem_decimal (platform : Platform) (h : 0 ≤ id) :
    ∀ c ∈ decimal id, regexDigit platform c = true := by
  rw [decimal_of_nonneg h]
  exact fun c hc ↦ (mem_decimalDigits platform hc).1

/-- **A number** without a sign is read back. -/
theorem toIntOrNull_decimal (h : 0 ≤ id) (hlt : id < 2 ^ 31) :
    toIntOrNull (decimal id) = some id := by
  have hvalue := digitsValue_decimalDigits id.natAbs
  have habs : id.natAbs < 2 ^ 31 := by omega
  rw [decimal_of_nonneg h]
  cases hdigits : decimalDigits id.natAbs with
  | nil => exact absurd hdigits (decimalDigits_ne_nil _)
  | cons c cs =>
    have hc : c ∈ decimalDigits id.natAbs := hdigits ▸ List.mem_cons_self
    have hlow : ¬c < 0x30 := UInt16.not_lt.2 (mem_decimalDigits .jvm hc).2.1
    rw [hdigits] at hvalue
    rw [toIntOrNull]
    simp only [hlow, if_false, hvalue, Option.bind_eq_bind, Option.bind_some, habs, if_true]
    rw [Int.natAbs_of_nonneg h]

/-- The characters of a number. -/
theorem not_mem_decimal (hc : c < 0x2D ∨ 0x39 < c) : c ∉ decimal id := by
  intro h
  rw [decimal] at h
  have hdigits : c ∉ decimalDigits id.natAbs := by
    intro h
    obtain ⟨-, hlo, hhi⟩ := mem_decimalDigits .jvm h
    obtain hc | hc := hc
    · exact UInt16.not_lt.2 hlo (UInt16.lt_trans hc (by decide))
    · exact UInt16.not_lt.2 hhi hc
  split at h
  · obtain rfl | h := List.mem_cons.1 h
    · revert hc
      decide
    · exact hdigits h
  · exact hdigits h

/-! ### One state -/

/-- A state, piece by piece. -/
theorem print_append (s : DeviceState) (attributes rest : Text) :
    s.print attributes ++ rest = ascii "DeviceState\x7b" ++ (ascii "identifier=" ++
      (decimal s.identifier ++ (ascii ", " ++ (ascii "name='" ++ (s.name ++
        quote :: (attributes ++ (ascii "\x7d" ++ rest))))))) := by
  have hkey : ascii "DeviceState\x7bidentifier=" =
      ascii "DeviceState\x7b" ++ ascii "identifier=" := by decide
  have hname : ascii ", name='" = ascii ", " ++ ascii "name='" := by decide
  rw [DeviceState.print, hkey, hname]
  simp only [List.append_assoc, List.cons_append]

/-- Behind a name with a quote, there is the name. -/
theorem matchHere_namePattern (hne : name ≠ []) (hquote : quote ∉ name) (rest : Text) :
    matchHere namePattern (ascii "name='" ++ (name ++ quote :: rest)) = some ⟨[name], rest⟩ := by
  have hname : ∀ c ∈ name, decide (c ≠ quote) = true := fun c hc ↦
    decide_eq_true fun heq ↦ hquote (heq ▸ hc)
  have hstop : ∀ c ∈ (quote :: rest).head?, decide (c ≠ quote) = false := by
    intro c hc
    cases hc
    rfl
  have hlast : matchHere [.literal [quote]] (quote :: rest) = some ⟨[], rest⟩ :=
    matchHere_literal [quote] rest
  rw [namePattern, matchHere_literal]
  exact matchHere_plus_of_run hne hname hstop hlast

/-- There is no empty name. -/
theorem matchHere_namePattern_empty (rest : Text) :
    matchHere namePattern (ascii "name='" ++ quote :: rest) = none := by
  rw [namePattern, matchHere_literal]
  apply matchHere_plus_of_head
  intro c hc
  cases hc
  rfl

theorem not_digit_of_mark (hc : c = 0x2C ∨ c = 0x2D) : regexDigit platform c = false := by
  cases platform <;> rcases hc with rfl | rfl <;> decide

/-- The digits of an identifier end where a comma follows. -/
theorem not_digit_of_comma (h : line.head? = some 0x2C) (rest : Text) :
    ∀ c ∈ (line ++ rest).head?, regexDigit platform c = false := by
  intro c hc
  rw [List.head?_append, h] at hc
  cases hc
  exact not_digit_of_mark (.inl rfl)

/-- **A match**: the identifier, and the first name in the line that is not empty. -/
theorem matchHere_printStates (platform : Platform) (hid : 0 ≤ id)
    (hcomma : gap.head? = some 0x2C) (hgap : newline ∉ gap)
    (hmiss : Misses namePattern gap (ascii "name='" ++ (name ++ quote :: rest)))
    (hne : name ≠ []) (hquote : quote ∉ name) :
    matchHere (printStatesPattern platform) (ascii "identifier=" ++ (decimal id ++
      (gap ++ (ascii "name='" ++ (name ++ quote :: rest))))) = some ⟨[decimal id, name], rest⟩ := by
  have hclass : ∀ c ∈ gap, decide (c ≠ newline) = true := fun c hc ↦
    decide_eq_true fun heq ↦ hgap (heq ▸ hc)
  have hlazy := matchHere_lazyStar_of_misses hclass hmiss (matchHere_namePattern hne hquote rest)
  rw [printStatesPattern, matchHere_literal]
  exact matchHere_plus_of_run (decimal_ne_nil hid) (regexDigit_of_mem_decimal platform hid)
    (not_digit_of_comma hcomma _) hlazy

/-- What a state is entered with. -/
def groups (pair : ℤ × Text) : List Text :=
  [decimal pair.1, pair.2]

theorem findAll_identifier (hid : 0 ≤ id) (hcomma : gap.head? = some 0x2C) (hgap : newline ∉ gap)
    (hmiss : Misses namePattern gap (ascii "name='" ++ (name ++ quote :: rest)))
    (hne : name ≠ []) (hquote : quote ∉ name) :
    findAll (printStatesPattern platform) 0 (ascii "identifier=" ++ (decimal id ++
      (gap ++ (ascii "name='" ++ (name ++ quote :: rest))))) =
        groups (id, name) :: findAll (printStatesPattern platform) 0 rest := by
  have hmatch := matchHere_printStates platform hid hcomma hgap hmiss hne hquote
  have hsplit : ascii "identifier=" ++ (decimal id ++ (gap ++ (ascii "name='" ++
      (name ++ quote :: rest)))) = ascii "identifier=" ++ (decimal id ++ (gap ++
        (ascii "name='" ++ (name ++ [quote])))) ++ rest := by
    simp only [List.append_assoc, List.cons_append, List.nil_append]
  rw [hsplit] at hmatch ⊢
  exact findAll_of_match (List.cons_ne_nil _ _) hmatch

/-- **No match** at an identifier with a sign. -/
theorem matchHere_printStates_neg (platform : Platform) (hid : id < 0) (rest : Text) :
    matchHere (printStatesPattern platform) (ascii "identifier=" ++ (decimal id ++ rest)) =
      none := by
  rw [printStatesPattern, matchHere_literal, decimal, if_pos hid]
  apply matchHere_plus_of_head
  intro c hc
  cases hc
  exact not_digit_of_mark (.inr rfl)

/-- **No match** at an identifier, if the line has no name that is not empty. -/
theorem matchHere_printStates_none (platform : Platform) (id : ℤ)
    (hcomma : line.head? = some 0x2C) (hline : newline ∉ line)
    (hmiss : Misses namePattern line (newline :: rest)) :
    matchHere (printStatesPattern platform)
      (ascii "identifier=" ++ (decimal id ++ (line ++ newline :: rest))) = none := by
  obtain hid | hid := Int.lt_or_le id 0
  · exact matchHere_printStates_neg platform hid _
  · rw [printStatesPattern, matchHere_literal]
    refine matchHere_plus_none (regexDigit_of_mem_decimal platform hid)
      (not_digit_of_comma hcomma _) fun v hv ↦ ?_
    -- the rest of the digits belongs to the line
    have hv_mem : ∀ d, d < 0x2D ∨ 0x39 < d → d ∉ v := fun d hd h ↦
      not_mem_decimal hd (hv.subset h)
    have hv_miss : Misses namePattern v (line ++ newline :: rest) :=
      .of_not_mem (hv_mem 0x6E (by decide)) _ _
    have hclass : ∀ c ∈ v ++ line, decide (c ≠ newline) = true := by
      refine fun c hc ↦ decide_eq_true ?_
      rintro rfl
      exact (List.mem_append.1 hc).elim (hv_mem newline (by decide)) hline
    rw [← List.append_assoc]
    refine matchHere_lazyStar_none hclass (hv_miss.append hmiss) (fun c hc ↦ ?_) ?_
    · cases hc
      rfl
    · exact matchHere_literal_none fun h ↦ absurd (List.cons_prefix_cons.1 h).1 (by decide)

/-- A text without an `i` has no match. -/
theorem misses_of_not_mem (h : 0x69 ∉ text) (rest : Text) :
    Misses (printStatesPattern platform) text rest :=
  .of_not_mem h (ascii "dentifier=") rest

/-- Nothing begins in front of the identifier of a state. -/
theorem misses_open (platform : Platform) (rest : Text) :
    Misses (printStatesPattern platform) (ascii "DeviceState\x7b") rest ∧
      Misses namePattern (ascii "DeviceState\x7b") rest :=
  ⟨.of_clear (by decide) rest, .of_clear (by decide) rest⟩

/-- A state is passed over if there is no match at its identifier, nor behind it. -/
theorem misses_state (hnone : matchHere (printStatesPattern platform)
      (ascii "identifier=" ++ (decimal id ++ (line ++ rest))) = none)
    (hmiss : Misses (printStatesPattern platform) line rest) :
    Misses (printStatesPattern platform)
      (ascii "DeviceState\x7b" ++ (ascii "identifier=" ++ (decimal id ++ line))) rest := by
  have hdecimal : Misses (printStatesPattern platform) (decimal id) (line ++ rest) :=
    misses_of_not_mem (not_mem_decimal (by decide)) _
  have htail : Misses (printStatesPattern platform) (ascii "dentifier=")
      (decimal id ++ line ++ rest) := .of_clear (by decide) _
  refine (misses_open platform _).1.append ⟨?_, htail.append (hdecimal.append hmiss)⟩
  rw [← List.append_assoc (decimal id) line rest] at hnone
  exact hnone

/-- The identifier of a state shows no name. -/
theorem missesName_state (hmiss : Misses namePattern line rest) :
    Misses namePattern
      (ascii "DeviceState\x7b" ++ (ascii "identifier=" ++ (decimal id ++ line))) rest := by
  have hdecimal : Misses namePattern (decimal id) (line ++ rest) :=
    .of_not_mem (not_mem_decimal (by decide)) _ _
  have hkey : Misses namePattern (ascii "identifier=") (decimal id ++ line ++ rest) :=
    .of_clear (by decide) _
  exact (misses_open .jvm _).2.append (hkey.append (hdecimal.append hmiss))

/-! ### Lines -/

/-- A unit that neither `identifier=` nor `name='` contains. -/
def Mark (d : UInt16) : Prop :=
  d ∉ ascii "identifier=" ∧ d ∉ ascii "name='"

instance (d : UInt16) : Decidable (Mark d) :=
  inferInstanceAs (Decidable (_ ∧ _))

/-- Neither a match nor a name begins with a mark. -/
theorem misses_mark (platform : Platform) (hd : Mark d) (rest : Text) :
    Misses (printStatesPattern platform) [d] rest ∧ Misses namePattern [d] rest := by
  have hi : 0x69 ∉ [d] := fun h ↦ hd.1 (List.mem_singleton.1 h ▸ by decide)
  have hn : 0x6E ∉ [d] := fun h ↦ hd.2 (List.mem_singleton.1 h ▸ by decide)
  exact ⟨misses_of_not_mem hi rest, .of_not_mem hn _ rest⟩

/-- The end of a line. -/
theorem misses_end (platform : Platform) (hd : Mark d) (rest : Text) :
    Misses (printStatesPattern platform) [d, newline] rest ∧
      Misses namePattern [d, newline] rest := by
  obtain ⟨hP, hN⟩ := misses_mark platform hd (newline :: rest)
  obtain ⟨hP', hN'⟩ := misses_mark platform (d := newline) (by decide) rest
  exact ⟨hP.append hP', hN.append hN'⟩

theorem Plain.no_name (h : Plain text) : ¬ascii "name='" <:+: text := fun hin ↦
  h.quote (hin.subset (by decide))

theorem Plain.misses (platform : Platform) (h : Plain text) (hd : Mark d) (rest : Text) :
    Misses (printStatesPattern platform) text (d :: rest) ∧
      Misses namePattern text (d :: rest) :=
  ⟨.of_mark h.identifier hd.1 rest, .of_mark h.no_name hd.2 rest⟩

theorem plain_attributes (s : DeviceState) : Plain s.attributes := by
  rw [DeviceState.attributes]
  cases s.appAccessible <;> cases s.cancelWhenRequesterNotOnTop <;>
    exact ⟨by decide, by decide⟩

theorem newline_not_mem_attributes (s : DeviceState) : newline ∉ s.attributes := by
  rw [DeviceState.attributes]
  cases s.appAccessible <;> cases s.cancelWhenRequesterNotOnTop <;> decide

/-- No match begins in what stands behind the name of a state. -/
theorem misses_attributes (platform : Platform) (hattributes : Plain attributes) (rest : Text) :
    Misses (printStatesPattern platform) (attributes ++ ascii "\x7d") rest ∧
      Misses namePattern (attributes ++ ascii "\x7d") rest := by
  obtain ⟨hstates, hname⟩ := hattributes.misses platform (d := 0x7D) (by decide) rest
  exact ⟨hstates.append (.of_clear (by decide) rest), hname.append (.of_clear (by decide) rest)⟩

/-- What stands behind the identifier of a state without a name. -/
def unnamed (attributes : Text) : Text :=
  ascii "," ++ (ascii " name='" ++ quote :: (attributes ++ ascii "\x7d"))

theorem print_unnamed (h : s.name = []) (attributes : Text) :
    s.print attributes = ascii "DeviceState\x7b" ++ (ascii "identifier=" ++
      (decimal s.identifier ++ unnamed attributes)) := by
  have hname : ascii ", " ++ (ascii "name='" ++ quote :: (attributes ++ ascii "\x7d")) =
    unnamed attributes := rfl
  rw [← List.append_nil (s.print attributes), print_append, h, ← hname]
  simp only [List.nil_append, List.append_nil]

/-- Neither a match nor a name begins in it. -/
theorem misses_unnamed (platform : Platform) (hattributes : Plain attributes) (rest : Text) :
    Misses (printStatesPattern platform) (unnamed attributes) rest ∧
      Misses namePattern (unnamed attributes) rest := by
  obtain ⟨hbehindP, hbehindN⟩ := misses_attributes platform hattributes rest
  constructor
  · have hfront : Misses (printStatesPattern platform) (ascii ", name='" ++ [quote])
        (attributes ++ ascii "\x7d" ++ rest) := misses_of_not_mem (by decide) _
    exact hfront.append hbehindP
  · have hquote : Misses namePattern (quote :: (attributes ++ ascii "\x7d")) rest :=
      ⟨matchHere_literal_none fun h ↦ absurd (List.cons_prefix_cons.1 h).1 (by decide), hbehindN⟩
    have htail : Misses namePattern (ascii "ame='")
        (quote :: (attributes ++ ascii "\x7d") ++ rest) := .of_clear (by decide) _
    have hname : Misses namePattern (ascii "name='" ++ quote :: (attributes ++ ascii "\x7d"))
        rest := ⟨matchHere_namePattern_empty _, htail.append hquote⟩
    have hblank : Misses namePattern (ascii ", ")
        (ascii "name='" ++ quote :: (attributes ++ ascii "\x7d") ++ rest) := .of_clear (by decide) _
    exact hblank.append hname

theorem newline_not_mem_unnamed (h : newline ∉ attributes) : newline ∉ unnamed attributes := by
  rw [unnamed]
  simp only [List.mem_append, List.mem_cons, not_or]
  exact ⟨by decide, by decide, by decide, h, by decide⟩

/-- The states that have a name, with their identifiers. -/
def named (states : List DeviceState) : List (ℤ × Text) :=
  (states.filter fun s ↦ s.name ≠ []).map fun s ↦ (s.identifier, s.name)

theorem named_cons_of_ne (h : s.name ≠ []) :
    named (s :: states) = (s.identifier, s.name) :: named states := by
  simp [named, h]

theorem named_cons_of_eq (h : s.name = []) : named (s :: states) = named states := by
  simp [named, h]

/-- **A state without a name** is passed over on its line. -/
theorem misses_line (platform : Platform) (hname : s.name = []) {close : UInt16}
    (hclose : Mark close) (hnewline : close ≠ newline) (rest : Text) :
    Misses (printStatesPattern platform) (s.print s.attributes ++ [close, newline]) rest := by
  obtain ⟨hbehindP, hbehindN⟩ := misses_unnamed platform (plain_attributes s)
    ([close] ++ newline :: rest)
  obtain ⟨hcloseP, hcloseN⟩ := misses_mark platform hclose (newline :: rest)
  have hmem : newline ∉ unnamed s.attributes ++ [close] := by
    intro h
    obtain h | h := List.mem_append.1 h
    · exact newline_not_mem_unnamed (newline_not_mem_attributes s) h
    · exact hnewline (List.mem_singleton.1 h).symm
  have hstate := misses_state (matchHere_printStates_none platform s.identifier rfl hmem
    (hbehindN.append hcloseN)) (hbehindP.append hcloseP)
  have hbreak := (misses_mark platform (d := newline) (by decide) rest).1
  have htext : s.print s.attributes ++ [close, newline] = ascii "DeviceState\x7b" ++
      (ascii "identifier=" ++ (decimal s.identifier ++ (unnamed s.attributes ++ [close]))) ++
        [newline] := by
    rw [print_unnamed hname]
    simp only [List.append_assoc, List.singleton_append]
  rw [htext]
  exact hstate.append hbreak

/-- **A state with a name** is found where it is printed. -/
theorem findAll_print (hne : s.name ≠ []) (hid : 0 ≤ s.identifier)
    (hattributes : Plain attributes) (rest : Text) :
    findAll (printStatesPattern platform) 0 (s.print attributes ++ rest) =
      groups (s.identifier, s.name) :: findAll (printStatesPattern platform) 0 rest := by
  have hblank : ∀ rest, Misses namePattern (ascii ", ") rest :=
    fun rest ↦ .of_clear (by decide) rest
  rw [print_append, findAll_of_misses (misses_open platform _).1, ← List.append_assoc attributes,
    findAll_identifier hid rfl (by decide) (hblank _) hne s.quote_not_mem,
    findAll_of_misses (misses_attributes platform hattributes rest).1]

/-- **A line** with a state gives the state if it has a name. -/
theorem findAll_line (hlead : Plain lead) (hs : s.name ≠ [] → 0 ≤ s.identifier) {close : UInt16}
    (hclose : Mark close) (hnewline : close ≠ newline) (rest : Text) :
    findAll (printStatesPattern platform) 0
        (lead ++ s.print s.attributes ++ [close, newline] ++ rest) =
      (named [s]).map groups ++ findAll (printStatesPattern platform) 0 rest := by
  have hline : lead ++ s.print s.attributes ++ [close, newline] ++ rest =
      lead ++ (s.print s.attributes ++ ([close, newline] ++ rest)) := by
    simp only [List.append_assoc]
  have hend := (misses_end platform hclose rest).1
  have hleadP : ∀ rest, Misses (printStatesPattern platform) lead
      (ascii "DeviceState\x7b" ++ rest) := fun rest ↦ (hlead.misses platform (by decide) _).1
  rw [hline]
  by_cases hname : s.name = []
  · have hstate := misses_line platform hname hclose hnewline rest
    rw [print_append, findAll_of_misses (hleadP _), ← print_append, ← List.append_assoc,
      findAll_of_misses hstate, named_cons_of_eq hname]
    rfl
  · rw [print_append, findAll_of_misses (hleadP _), ← print_append,
      findAll_print hname (hs hname) (plain_attributes s), findAll_of_misses hend,
      named_cons_of_ne hname]
    rfl

/-- **Lines** with states give those that have a name. -/
theorem findAll_lines {close : UInt16} (hclose : Mark close) (hnewline : close ≠ newline)
    {states : List (Text × DeviceState)}
    (h : ∀ line ∈ states, Plain line.1 ∧ (line.2.name ≠ [] → 0 ≤ line.2.identifier))
    (rest : Text) :
    findAll (printStatesPattern platform) 0 (lines close states ++ rest) =
      (named (states.map Prod.snd)).map groups ++
        findAll (printStatesPattern platform) 0 rest := by
  induction states with
  | nil => rfl
  | cons line states ih =>
    obtain ⟨⟨hlead, hs⟩, h⟩ := List.forall_mem_cons.1 h
    have hnamed : named ((line :: states).map Prod.snd) =
        named [line.2] ++ named (states.map Prod.snd) := by
      rw [named, List.map_cons, ← List.singleton_append, List.filter_append, List.map_append]
      rfl
    rw [lines, List.flatMap_cons, List.append_assoc, findAll_line hlead hs hclose hnewline, ← lines,
      ih h, hnamed, List.map_append, List.append_assoc]

/-! ### No names -/

/-- A state without a name shows none. -/
theorem missesName_print (hname : s.name = []) (hattributes : Plain attributes) (rest : Text) :
    Misses namePattern (s.print attributes) rest := by
  rw [print_unnamed hname]
  exact missesName_state (misses_unnamed .jvm hattributes rest).2

theorem missesName_lines {close : UInt16} (hclose : Mark close)
    {states : List (Text × DeviceState)} (h : ∀ line ∈ states, Plain line.1 ∧ line.2.name = [])
    (rest : Text) : Misses namePattern (lines close states) rest := by
  induction states with
  | nil => trivial
  | cons line states ih =>
    obtain ⟨⟨hlead, hname⟩, h⟩ := List.forall_mem_cons.1 h
    have hend := (misses_end .jvm hclose (lines close states ++ rest)).2
    have hprint := missesName_print hname (plain_attributes line.2)
      ([close, newline] ++ (lines close states ++ rest))
    have hleadN : Misses namePattern line.1
        (line.2.print line.2.attributes ++ ([close, newline] ++ (lines close states ++ rest))) := by
      rw [print_append]
      exact (hlead.misses .jvm (by decide) _).2
    rw [lines, List.flatMap_cons, ← lines]
    exact ((hleadN.append hprint).append hend).append (ih h)

/-- The characters before the state of an entry. -/
theorem not_mem_key (hlead : lead ⊆ ascii ", ") (hc : c < 0x20 ∨ 0x3D < c) :
    c ∉ lead ++ (decimal id ++ ascii "=") := by
  intro h
  obtain h | h := List.mem_append.1 h
  · have hmem : c = 0x2C ∨ c = 0x20 := by simpa [ascii] using hlead h
    obtain rfl | rfl := hmem <;> exact absurd hc (by decide)
  obtain h | h := List.mem_append.1 h
  · refine not_mem_decimal ?_ h
    exact hc.imp (UInt16.lt_trans · (by decide)) (UInt16.lt_trans (by decide) ·)
  · obtain rfl : c = 0x3D := by simpa [ascii] using h
    exact absurd hc (by decide)

theorem plain_nil : Plain [] where
  identifier := by decide
  quote := List.not_mem_nil

theorem missesName_entries (hlead : lead ⊆ ascii ", ") (h : ∀ s ∈ states, s.name = [])
    (rest : Text) : Misses namePattern (entries lead states) rest := by
  induction states generalizing lead with
  | nil => trivial
  | cons s states ih =>
    obtain ⟨hname, h⟩ := List.forall_mem_cons.1 h
    have hkey : Misses namePattern (lead ++ (decimal s.identifier ++ ascii "="))
        (s.print [] ++ (entries (ascii ", ") states ++ rest)) :=
      .of_not_mem (not_mem_key hlead (by decide)) _ _
    have hprint := missesName_print hname plain_nil (entries (ascii ", ") states ++ rest)
    rw [entries, DeviceState.entry, ← List.append_assoc lead]
    exact (hkey.append hprint).append (ih (fun _ hc ↦ hc) h)

/-! ### A map -/

/-- What the first expression makes of the entries of a map, while a state may wait for its name. -/
def found : Option ℤ → List DeviceState → List (ℤ × Text)
  | _, [] => []
  | none, s :: states =>
    if s.identifier < 0 then found none states
    else if s.name = [] then found (some s.identifier) states
    else (s.identifier, s.name) :: found none states
  | some id, s :: states =>
    if s.name = [] then found (some id) states else (id, s.name) :: found none states

theorem found_of_neg (hid : s.identifier < 0) : found none (s :: states) = found none states := by
  rw [found, if_pos hid]

theorem found_of_unnamed (hid : 0 ≤ s.identifier) (hname : s.name = []) :
    found none (s :: states) = found (some s.identifier) states := by
  rw [found, if_neg (Int.not_lt.2 hid), if_pos hname]

theorem found_of_named (hid : 0 ≤ s.identifier) (hname : s.name ≠ []) :
    found none (s :: states) = (s.identifier, s.name) :: found none states := by
  rw [found, if_neg (Int.not_lt.2 hid), if_neg hname]

theorem found_some_of_unnamed (h : ∀ s ∈ states, s.name = []) : found (some id) states = [] := by
  induction states with
  | nil => rfl
  | cons s states ih =>
    obtain ⟨hname, h⟩ := List.forall_mem_cons.1 h
    rw [found, if_pos hname, ih h]

theorem found_some_append {skipped : List DeviceState} (h : ∀ s ∈ skipped, s.name = [])
    (ht : t.name ≠ []) :
    found (some id) (skipped ++ t :: states) = (id, t.name) :: found none states := by
  induction skipped with
  | nil => exact if_neg ht
  | cons s skipped ih =>
    obtain ⟨hname, h⟩ := List.forall_mem_cons.1 h
    rw [List.cons_append, found, if_pos hname, ih h]

/-- The first state that has a name. -/
theorem exists_first_named (states : List DeviceState) : (∀ s ∈ states, s.name = []) ∨
    ∃ skipped t behind, states = skipped ++ t :: behind ∧ (∀ s ∈ skipped, s.name = []) ∧
      t.name ≠ [] := by
  induction states with
  | nil => exact .inl (List.forall_mem_nil _)
  | cons s states ih =>
    by_cases hname : s.name = []
    · obtain h | ⟨skipped, t, behind, rfl, h, ht⟩ := ih
      · exact .inl (List.forall_mem_cons.2 ⟨hname, h⟩)
      · exact .inr ⟨s :: skipped, t, behind, rfl, List.forall_mem_cons.2 ⟨hname, h⟩, ht⟩
    · exact .inr ⟨[], s, states, rfl, List.forall_mem_nil _, hname⟩

theorem entries_append (states more : List DeviceState) :
    entries (ascii ", ") (states ++ more) =
      entries (ascii ", ") states ++ entries (ascii ", ") more := by
  induction states with
  | nil => rfl
  | cons s states ih =>
    rw [List.cons_append, entries, entries, ih, List.append_assoc (ascii ", " ++ s.entry)]

theorem newline_not_mem_print (h : newline ∉ attributes) (s : DeviceState) :
    newline ∉ s.print attributes := by
  rw [DeviceState.print]
  simp only [List.mem_append, List.mem_cons, not_or]
  exact ⟨⟨⟨⟨⟨by decide, not_mem_decimal (by decide)⟩, by decide⟩, s.newline_not_mem⟩,
    by decide, h⟩, by decide⟩

theorem newline_not_mem_entries (hlead : lead ⊆ ascii ", ") (states : List DeviceState) :
    newline ∉ entries lead states := by
  induction states generalizing lead with
  | nil => exact List.not_mem_nil
  | cons s states ih =>
    rw [entries, DeviceState.entry, ← List.append_assoc lead, List.mem_append, List.mem_append]
    rintro ((h | h) | h)
    · exact not_mem_key hlead (by decide) h
    · exact newline_not_mem_print List.not_mem_nil s h
    · exact ih (fun _ hc ↦ hc) h

/-- The text from the identifier of the state `s` to the name of the state `t`, where states without
a name are skipped. -/
def gapTo (skipped : List DeviceState) (t : DeviceState) : Text :=
  unnamed [] ++ (entries (ascii ", ") skipped ++ (ascii ", " ++ (decimal t.identifier ++
    ascii "=") ++ (ascii "DeviceState\x7b" ++ (ascii "identifier=" ++
      (decimal t.identifier ++ ascii ", ")))))

theorem newline_not_mem_gapTo (skipped : List DeviceState) (t : DeviceState) :
    newline ∉ gapTo skipped t := by
  intro h
  obtain h | h := List.mem_append.1 h
  · exact newline_not_mem_unnamed List.not_mem_nil h
  obtain h | h := List.mem_append.1 h
  · exact newline_not_mem_entries (List.Subset.refl _) skipped h
  obtain h | h := List.mem_append.1 h
  · exact not_mem_key (List.Subset.refl _) (by decide) h
  simp only [List.mem_append] at h
  obtain h | h | h | h := h
  · exact absurd h (by decide)
  · exact absurd h (by decide)
  · exact not_mem_decimal (by decide) h
  · exact absurd h (by decide)

theorem missesName_gapTo {skipped : List DeviceState} (h : ∀ s ∈ skipped, s.name = [])
    (t : DeviceState) (rest : Text) : Misses namePattern (gapTo skipped t) rest := by
  have hkey : ∀ rest, Misses namePattern (ascii ", " ++ (decimal t.identifier ++ ascii "=")) rest :=
    fun rest ↦ .of_not_mem (not_mem_key (List.Subset.refl _) (by decide)) _ _
  have hblank : Misses namePattern (ascii ", ") rest := .of_clear (by decide) rest
  have hstate : Misses namePattern (ascii "DeviceState\x7b" ++ (ascii "identifier=" ++
      (decimal t.identifier ++ ascii ", "))) rest := missesName_state hblank
  exact (misses_unnamed .jvm plain_nil _).2.append
    ((missesName_entries (List.Subset.refl _) h _).append ((hkey _).append hstate))

/-- **A state with neither name nor sign** takes the name of the next state that has one. -/
theorem findAll_borrowed {skipped : List DeviceState} (hname : s.name = [])
    (hid : 0 ≤ s.identifier) (hskipped : ∀ s ∈ skipped, s.name = []) (ht : t.name ≠ [])
    (rest : Text) :
    findAll (printStatesPattern platform) 0
        (s.print [] ++ (entries (ascii ", ") (skipped ++ [t]) ++ rest)) =
      groups (s.identifier, t.name) :: findAll (printStatesPattern platform) 0 rest := by
  have hclose : Misses (printStatesPattern platform) (ascii "\x7d") rest := .of_clear (by decide) _
  have htext : s.print [] ++ (entries (ascii ", ") (skipped ++ [t]) ++ rest) =
      ascii "DeviceState\x7b" ++ (ascii "identifier=" ++ (decimal s.identifier ++
        (gapTo skipped t ++ (ascii "name='" ++ (t.name ++ quote :: (ascii "\x7d" ++ rest)))))) := by
    have hprint := print_append t [] rest
    rw [print_unnamed hname, entries_append, entries, entries, DeviceState.entry, gapTo]
    simp only [List.append_assoc, List.nil_append, hprint]
  rw [htext, findAll_of_misses (misses_open platform _).1, findAll_identifier hid rfl
    (newline_not_mem_gapTo skipped t) (missesName_gapTo hskipped t _) ht t.quote_not_mem,
    findAll_of_misses hclose]

/-- A state with a sign and no name is passed over. -/
theorem misses_print_neg (hname : s.name = []) (hid : s.identifier < 0) (rest : Text) :
    Misses (printStatesPattern platform) (s.print []) rest := by
  rw [print_unnamed hname]
  exact misses_state (matchHere_printStates_neg platform hid (unnamed [] ++ rest))
    (misses_unnamed platform plain_nil rest).1

/-- A text without a name has no match. -/
theorem findAll_of_noName (h : Misses namePattern text []) :
    findAll (printStatesPattern platform) 0 text = [] ∧
      findAll (dumpsysStatesPattern platform) 0 text = [] := by
  have hdead : Dead namePattern text :=
    h.dead (matchHere_literal_none fun hpre ↦ absurd (List.prefix_nil.1 hpre) (by decide))
  have hcomma : Dead (.literal (ascii ", name='") :: .plus true (· ≠ quote) :: [.literal [quote]])
      text := by
    intro v hv
    have hsplit : ascii ", name='" = ascii ", " ++ ascii "name='" := by decide
    rw [hsplit, matchHere_literal_append]
    exact (hdead.cons (.literal (ascii ", "))) v hv
  constructor
  · exact (((hdead.cons _).cons _).cons _).findAll_eq_nil
  · exact (((hcomma.cons _).cons _).cons _).findAll_eq_nil

/-- What stands behind the entries of a map shows no name. -/
theorem missesName_close {after : Text} (h : Plain after) :
    Misses namePattern (ascii "\x7d\n" ++ after) [] := by
  have hafter : Misses namePattern after [] := .of_not_occurs h.no_name
  have hclose : Misses namePattern (ascii "\x7d\n") (after ++ []) := .of_clear (by decide) _
  exact hclose.append hafter

/-- **A map**: what the first expression makes of its entries. -/
theorem findAll_entries (hlead : lead ⊆ ascii ", ") (h : Unsigned states) {after : Text}
    (hafter : Plain after) :
    findAll (printStatesPattern platform) 0 (entries lead states ++ (ascii "\x7d\n" ++ after)) =
      (found none states).map groups := by
  have hsep : ascii ", " ⊆ ascii ", " := List.Subset.refl _
  induction hlen : states.length using Nat.strongRecOn generalizing states lead with
  | ind n ih =>
    cases states with
    | nil => exact (findAll_of_noName (missesName_close hafter)).1
    | cons s states =>
      have hstates : Unsigned states := fun t ht ↦ h t (List.mem_cons_of_mem s ht)
      have hkey : ∀ rest, Misses (printStatesPattern platform)
          (lead ++ (decimal s.identifier ++ ascii "=")) rest := fun rest ↦
        misses_of_not_mem (not_mem_key hlead (by decide)) rest
      have htext : ∀ rest, lead ++ s.entry ++ rest =
          lead ++ (decimal s.identifier ++ ascii "=") ++ (s.print [] ++ rest) := by
        intro rest
        rw [DeviceState.entry]
        simp only [List.append_assoc]
      rw [entries, List.append_assoc (lead ++ s.entry), htext, findAll_of_misses (hkey _)]
      have hlt : states.length < n := hlen ▸ Nat.lt_succ_self _
      by_cases hname : s.name = []
      · obtain hid | hid := Int.lt_or_le s.identifier 0
        · -- a state that is no match
          rw [findAll_of_misses (misses_print_neg hname hid _), ih _ hlt hsep hstates rfl,
            found_of_neg hid]
        · obtain hall | ⟨skipped, t, behind, rfl, hskipped, ht⟩ := exists_first_named states
          · -- the last state that counts
            have hnone : Misses namePattern (s.print [] ++ (entries (ascii ", ") states ++
                (ascii "\x7d\n" ++ after))) [] :=
              (missesName_print hname plain_nil _).append
                ((missesName_entries hsep hall _).append (missesName_close hafter))
            rw [(findAll_of_noName hnone).1, found_of_unnamed hid hname, found_some_of_unnamed hall]
            rfl
          · -- a state that takes the name of `t`
            have hbehind : Unsigned behind := fun u hu ↦
              hstates u (List.mem_append_right _ (List.mem_cons_of_mem t hu))
            have hlt' : behind.length < n := by
              rw [List.length_append, List.length_cons] at hlt
              omega
            have hsplit : entries (ascii ", ") (skipped ++ t :: behind) =
                entries (ascii ", ") (skipped ++ [t]) ++ entries (ascii ", ") behind := by
              rw [List.append_cons, entries_append]
            rw [hsplit, List.append_assoc, findAll_borrowed hname hid hskipped ht,
              ih _ hlt' hsep hbehind rfl, found_of_unnamed hid hname, found_some_append hskipped ht]
            rfl
      · have hid := h s List.mem_cons_self hname
        rw [findAll_print hname hid plain_nil, ih _ hlt hsep hstates rfl, found_of_named hid hname]
        rfl

theorem named_eq_nil (h : ∀ s ∈ states, s.name = []) : named states = [] := by
  induction states with
  | nil => rfl
  | cons s states ih =>
    obtain ⟨hname, h⟩ := List.forall_mem_cons.1 h
    rw [named_cons_of_eq hname, ih h]

theorem mem_named {pair : ℤ × Text} :
    pair ∈ named states ↔ ∃ s ∈ states, s.name ≠ [] ∧ (s.identifier, s.name) = pair := by
  simp [named, and_assoc]

/-- Where no state takes the name of another, the states with a name are found. -/
theorem found_of_separated (h : Unsigned states) (hsep : Separated states) :
    found none states = named states := by
  induction states with
  | nil => rfl
  | cons s states ih =>
    obtain ⟨hs, h⟩ := List.forall_mem_cons.1 h
    obtain ⟨hbehind, hsep⟩ := List.pairwise_cons.1 hsep
    by_cases hname : s.name = []
    · rw [named_cons_of_eq hname]
      obtain hid | hid := Int.lt_or_le s.identifier 0
      · rw [found_of_neg hid, ih h hsep]
      · have hunnamed : ∀ t ∈ states, t.name = [] := fun t ht ↦ hbehind t ht hname hid
        rw [found_of_unnamed hid hname, found_some_of_unnamed hunnamed, named_eq_nil hunnamed]
    · rw [found_of_named (hs hname) hname, ih h hsep, named_cons_of_ne hname]

/-- Otherwise, the identifier of a state without a name is found. -/
theorem exists_borrowed (hsep : ¬Separated states) :
    ∃ s ∈ states, s.name = [] ∧ s.identifier ∈ (found none states).map Prod.fst := by
  induction states with
  | nil => exact absurd List.Pairwise.nil hsep
  | cons s states ih =>
    have hrest : (s.name = [] → 0 ≤ s.identifier → ∀ t ∈ states, t.name = []) →
        ¬Separated states := fun h hstates ↦
      hsep (List.pairwise_cons.2 ⟨fun t ht hname hid ↦ h hname hid t ht, hstates⟩)
    obtain hid | hid := Int.lt_or_le s.identifier 0
    · obtain ⟨t, ht, htname, hmem⟩ := ih (hrest fun _ h ↦ absurd hid (Int.not_lt.2 h))
      rw [found_of_neg hid]
      exact ⟨t, List.mem_cons_of_mem s ht, htname, hmem⟩
    by_cases hname : s.name = []
    · rw [found_of_unnamed hid hname]
      obtain hall | ⟨skipped, t, behind, rfl, hskipped, ht⟩ := exists_first_named states
      · refine absurd ?_ (hrest fun _ _ ↦ hall)
        exact List.pairwise_of_forall_mem_list fun _ _ t ht _ _ ↦ hall t ht
      · rw [found_some_append hskipped ht]
        exact ⟨s, List.mem_cons_self, hname, List.mem_cons_self⟩
    · obtain ⟨t, ht, htname, hmem⟩ := ih (hrest fun h ↦ absurd h hname)
      rw [found_of_named hid hname]
      exact ⟨t, List.mem_cons_of_mem s ht, htname, List.mem_cons_of_mem _ hmem⟩

theorem unnamed_of_named_nil (h : named states = []) : ∀ s ∈ states, s.name = [] := by
  intro s hs
  by_contra hname
  have hmem : (s.identifier, s.name) ∈ named states := mem_named.2 ⟨s, hs, hname, rfl⟩
  rw [h] at hmem
  cases hmem

/-- Nothing is found if no state has a name. -/
theorem unnamed_of_found_nil (h : Unsigned states) (hnil : found none states = []) :
    ∀ s ∈ states, s.name = [] := by
  by_cases hsep : Separated states
  · rw [found_of_separated h hsep] at hnil
    exact unnamed_of_named_nil hnil
  · obtain ⟨s, -, -, hmem⟩ := exists_borrowed hsep
    rw [hnil] at hmem
    cases hmem

/-! ### The map -/

/-- States are entered one by one. -/
theorem foldl_enter {pairs : List (ℤ × Text)} (h : ∀ pair ∈ pairs, 0 ≤ pair.1 ∧ pair.1 < 2 ^ 31)
    (map : LinkedMap ℤ Text) : (pairs.map groups).foldl enter map =
      pairs.foldl (fun map pair ↦ map.put pair.1 pair.2) map := by
  induction pairs generalizing map with
  | nil => rfl
  | cons pair pairs ih =>
    obtain ⟨⟨hid, hlt⟩, h⟩ := List.forall_mem_cons.1 h
    rw [List.map_cons, List.foldl_cons, List.foldl_cons, groups, enter, toIntOrNull_decimal hid hlt]
    exact ih h _

/-- The result, if the second expression finds nothing where the first does not. -/
theorem parseSupportedStates_of_findAll {pairs : List (ℤ × Text)}
    (hbounds : ∀ pair ∈ pairs, 0 ≤ pair.1 ∧ pair.1 < 2 ^ 31)
    (hfind : findAll (printStatesPattern platform) 0 text = pairs.map groups)
    (hnone : pairs = [] → findAll (dumpsysStatesPattern platform) 0 text = []) :
    parseSupportedStates platform (some text) =
      pairs.foldl (fun map pair ↦ map.put pair.1 pair.2) .empty := by
  rw [parseSupportedStates]
  by_cases htext : text = []
  · subst htext
    have hnil : pairs = [] := List.map_eq_nil_iff.1 hfind.symm
    rw [hnil]
    rfl
  · simp only [htext, if_false, hfind, foldl_enter hbounds]
    split
    · rename_i hempty
      cases pairs with
      | nil =>
        rw [hnone rfl]
        rfl
      | cons pair pairs =>
        have hkey := (LinkedMap.mem_keys_foldl_put (pair :: pairs) (.empty : LinkedMap ℤ Text)).2
          (.inr List.mem_cons_self)
        rw [hempty] at hkey
        cases hkey
    · rfl

/-- The first group of a match is a number without a sign. -/
def Numbered (platform : Platform) (groups : List Text) : Prop :=
  ∃ g gs, groups = g :: gs ∧ g ≠ [] ∧ ∀ c ∈ g, regexDigit platform c = true

theorem numbered_of_mem_findAll {gs : List Text}
    (h : gs ∈ findAll (printStatesPattern platform) 0 text ∨
      gs ∈ findAll (dumpsysStatesPattern platform) 0 text) : Numbered platform gs := by
  obtain h | h := h
  · obtain ⟨v, m, hm, rfl⟩ := exists_match_of_mem_findAll h
    rw [printStatesPattern, matchHere] at hm
    exact groups_plus (Option.ite_none_right_eq_some.1 hm).2
  · obtain ⟨v, m, hm, rfl⟩ := exists_match_of_mem_findAll h
    exact groups_plus hm

/-- Digits denote no negative number. -/
theorem toIntOrNull_nonneg {g : Text} (hne : g ≠ []) (hg : ∀ c ∈ g, regexDigit platform c = true)
    (h : toIntOrNull g = some id) : 0 ≤ id := by
  obtain ⟨c, cs, rfl⟩ := List.exists_cons_of_ne_nil hne
  have hminus : c ≠ 0x2D := by
    rintro rfl
    have hdigit := hg _ List.mem_cons_self
    rw [not_digit_of_mark (.inr rfl)] at hdigit
    cases hdigit
  have hnat : ∀ digits : Text, ((digitsValue 0 digits).bind fun n ↦
      if n < 2 ^ 31 then some (n : ℤ) else none) = some id → 0 ≤ id := by
    intro digits hdigits
    obtain ⟨n, -, hn⟩ := Option.bind_eq_some_iff.1 hdigits
    obtain ⟨-, hn⟩ := Option.ite_none_right_eq_some.1 hn
    obtain rfl := Option.some.inj hn
    exact Int.natCast_nonneg n
  rw [toIntOrNull] at h
  by_cases hlow : c < 0x30
  · rw [if_pos hlow] at h
    obtain ⟨-, h⟩ := Option.ite_none_left_eq_some.1 h
    rw [if_neg hminus] at h
    exact hnat cs (Option.ite_none_right_eq_some.1 h).2
  · rw [if_neg hlow] at h
    exact hnat (c :: cs) h

theorem foldl_enter_nonneg {found : List (List Text)} (h : ∀ gs ∈ found, Numbered platform gs)
    {map : LinkedMap ℤ Text} (hmap : ∀ k ∈ map.entries.map Prod.fst, 0 ≤ k) :
    ∀ k ∈ (found.foldl enter map).entries.map Prod.fst, 0 ≤ k := by
  induction found generalizing map with
  | nil => exact hmap
  | cons gs found ih =>
    obtain ⟨hgs, hfound⟩ := List.forall_mem_cons.1 h
    refine ih hfound ?_
    obtain ⟨g, gs, rfl, hne, hdigits⟩ := hgs
    obtain _ | ⟨name, _ | ⟨more, gs⟩⟩ := gs
    · exact hmap
    · rw [enter]
      cases hid : toIntOrNull g with
      | none => exact hmap
      | some id =>
        intro k hk
        obtain rfl | hk := LinkedMap.mem_keys_put.1 hk
        · exact toIntOrNull_nonneg hne hdigits hid
        · exact hmap k hk
    · exact hmap

/-- **No identifier has a sign.** -/
theorem parseSupportedStates_nonneg (platform : Platform) (text : Option Text) :
    ∀ k ∈ (parseSupportedStates platform text).entries.map Prod.fst, 0 ≤ k := by
  have hempty : ∀ k ∈ (LinkedMap.empty : LinkedMap ℤ Text).entries.map Prod.fst, 0 ≤ k :=
    fun k hk ↦ by cases hk
  cases text with
  | none => exact hempty
  | some text =>
    have hnumbered : ∀ gs ∈ findAll (printStatesPattern platform) 0 text, Numbered platform gs :=
      fun gs h ↦ numbered_of_mem_findAll (.inl h)
    have hfirst := foldl_enter_nonneg hnumbered hempty
    rw [parseSupportedStates]
    split
    · exact hempty
    · dsimp only
      split
      · exact foldl_enter_nonneg (fun gs h ↦ numbered_of_mem_findAll (.inr h)) hfirst
      · exact hfirst

/-- A result without the identifiers that have a sign. -/
theorem Parsed.unsigned {map : LinkedMap ℤ Text} (h : Parsed map states)
    (hmap : ∀ k ∈ map.entries.map Prod.fst, 0 ≤ k) : Unsigned states := by
  intro s hs hne
  have hmem := (h s.identifier s.name).2 ⟨s, hs, rfl, rfl, hne⟩
  exact hmap _ (List.mem_map_of_mem hmem)

theorem eq_of_identifier (hdistinct : (states.map DeviceState.identifier).Nodup) (hs : s ∈ states)
    (ht : t ∈ states) (h : s.identifier = t.identifier) : s = t :=
  List.inj_on_of_nodup_map hdistinct hs ht h

/-- **The right result**: what is entered are the states that have a name. -/
theorem parsed_of_pairs (hdistinct : (states.map DeviceState.identifier).Nodup)
    {pairs : List (ℤ × Text)} (h : ∀ pair, pair ∈ pairs ↔ pair ∈ named states) :
    Parsed (pairs.foldl (fun map pair ↦ map.put pair.1 pair.2) .empty) states := by
  have hfunctional : ∀ p ∈ pairs, ∀ q ∈ pairs, p.1 = q.1 → p.2 = q.2 := by
    intro p hp q hq hkey
    obtain ⟨s, hs, -, rfl⟩ := mem_named.1 ((h p).1 hp)
    obtain ⟨t, ht, -, rfl⟩ := mem_named.1 ((h q).1 hq)
    rw [eq_of_identifier hdistinct hs ht hkey]
  intro k v
  have hempty : (k, v) ∉ (LinkedMap.empty : LinkedMap ℤ Text).entries := List.not_mem_nil
  rw [LinkedMap.mem_foldl_put (fun _ _ _ he ↦ by cases he) hfunctional, or_iff_right hempty, h,
    mem_named]
  constructor
  · rintro ⟨s, hs, hne, heq⟩
    obtain ⟨rfl, rfl⟩ := Prod.mk.inj heq
    exact ⟨s, hs, rfl, rfl, hne⟩
  · rintro ⟨s, hs, rfl, rfl, hne⟩
    exact ⟨s, hs, hne, rfl⟩

/-- **The wrong result**: a state without a name is entered. -/
theorem not_parsed_of_pairs (hdistinct : (states.map DeviceState.identifier).Nodup)
    {pairs : List (ℤ × Text)} (hs : s ∈ states) (hname : s.name = [])
    (hmem : s.identifier ∈ pairs.map Prod.fst) :
    ¬Parsed (pairs.foldl (fun map pair ↦ map.put pair.1 pair.2) .empty) states := by
  intro h
  have hkey := (LinkedMap.mem_keys_foldl_put pairs (.empty : LinkedMap ℤ Text)).2 (.inr hmem)
  obtain ⟨⟨k, v⟩, hentry, rfl⟩ := List.mem_map.1 hkey
  obtain ⟨t, ht, hid, rfl, hne⟩ := (h _ _).1 hentry
  obtain rfl := eq_of_identifier hdistinct ht hs hid
  exact hne hname

/-! ### The two texts -/

theorem Unsigned.bounds (h : Unsigned states) {pair : ℤ × Text} (hpair : pair ∈ named states) :
    0 ≤ pair.1 ∧ pair.1 < 2 ^ 31 := by
  obtain ⟨s, hs, hne, rfl⟩ := mem_named.1 hpair
  exact ⟨h s hs hne, s.int.2⟩

theorem found_bounds {waiting : Option ℤ} (h : ∀ id ∈ waiting, 0 ≤ id ∧ id < 2 ^ 31)
    {pair : ℤ × Text} (hpair : pair ∈ found waiting states) : 0 ≤ pair.1 ∧ pair.1 < 2 ^ 31 := by
  induction states generalizing waiting with
  | nil => cases waiting <;> cases hpair
  | cons s states ih =>
    have hnone : ∀ id ∈ (none : Option ℤ), 0 ≤ id ∧ id < 2 ^ 31 := fun id hid ↦ by cases hid
    cases waiting with
    | none =>
      rw [found] at hpair
      split at hpair
      · exact ih hnone hpair
      · rename_i hid
        have hs : 0 ≤ s.identifier ∧ s.identifier < 2 ^ 31 := ⟨Int.not_lt.1 hid, s.int.2⟩
        split at hpair
        · refine ih (fun id hid ↦ ?_) hpair
          exact Option.some.inj hid ▸ hs
        · obtain rfl | hpair := List.mem_cons.1 hpair
          · exact hs
          · exact ih hnone hpair
    | some id =>
      rw [found] at hpair
      split at hpair
      · exact ih h hpair
      · obtain rfl | hpair := List.mem_cons.1 hpair
        · exact h id rfl
        · exact ih hnone hpair

/-- What `print-states` prints gives the states that have a name. -/
theorem parseSupportedStates_printStates (h : Unsigned states) :
    parseSupportedStates platform (some (printStates states)) =
      (named states).foldl (fun map pair ↦ map.put pair.1 pair.2) .empty := by
  have hblank : Plain (ascii "  ") := ⟨by decide, by decide⟩
  have hlines : ∀ line ∈ states.map fun s ↦ (ascii "  ", s),
      Plain line.1 ∧ (line.2.name ≠ [] → 0 ≤ line.2.identifier) := by
    intro line hline
    obtain ⟨s, hs, rfl⟩ := List.mem_map.1 hline
    exact ⟨hblank, h s hs⟩
  have hstates : (states.map fun s ↦ (ascii "  ", s)).map Prod.snd = states := by
    rw [List.map_map]
    exact List.map_id _
  have htitle : ∀ rest, Misses (printStatesPattern platform) (ascii "Supported states: [\n") rest :=
    fun rest ↦ misses_of_not_mem (by decide) rest
  have hend : Misses (printStatesPattern platform) (ascii "]\n") [] :=
    misses_of_not_mem (by decide) []
  refine parseSupportedStates_of_findAll (fun pair ↦ h.bounds) ?_ fun hnil ↦ ?_
  · have hnothing := findAll_of_misses hend
    rw [List.append_nil] at hnothing
    rw [printStates, List.append_assoc, findAll_of_misses (htitle _),
      findAll_lines (by decide) (by decide) hlines, hstates, hnothing]
    exact List.append_nil _
  · have hnames : ∀ line ∈ states.map fun s ↦ (ascii "  ", s),
        Plain line.1 ∧ line.2.name = [] := by
      intro line hline
      obtain ⟨s, hs, rfl⟩ := List.mem_map.1 hline
      exact ⟨hblank, unnamed_of_named_nil hnil s hs⟩
    have htitleN : ∀ rest, Misses namePattern (ascii "Supported states: [\n") rest :=
      fun rest ↦ .of_clear (by decide) rest
    have hendN : Misses namePattern (ascii "]\n") [] := .of_clear (by decide) []
    exact (findAll_of_noName
      (((htitleN _).append (missesName_lines (by decide) hnames _)).append hendN)).2

/-- What `dumpsys` prints gives the states of its lines that have a name, and what the first
expression makes of the map. -/
theorem parseSupportedStates_dumpsys (around : Surroundings states) (h : Unsigned states) :
    parseSupportedStates platform (some around.dumpsys) =
      (named (around.before.map Prod.snd) ++ found none states).foldl
        (fun map pair ↦ map.put pair.1 pair.2) .empty := by
  have hlines : ∀ line ∈ around.before,
      Plain line.1 ∧ (line.2.name ≠ [] → 0 ≤ line.2.identifier) := fun line hline ↦
    ⟨(around.before_mem line hline).1, h _ (around.before_mem line hline).2⟩
  have hbefore : Unsigned (around.before.map Prod.snd) := by
    intro s hs
    obtain ⟨line, hline, rfl⟩ := List.mem_map.1 hs
    exact (hlines line hline).2
  have htext : around.dumpsys = lines 0x5D around.before ++ (around.label ++ (ascii "\x7b" ++
      (entries [] states ++ (ascii "\x7d\n" ++ around.after)))) := by
    rw [Surroundings.dumpsys]
    simp only [List.append_assoc]
  have hopen : ∀ rest, Misses (printStatesPattern platform) (ascii "\x7b") rest ∧
      Misses namePattern (ascii "\x7b") rest :=
    fun rest ↦ ⟨.of_clear (by decide) rest, .of_clear (by decide) rest⟩
  have hlabel : ∀ rest, Misses (printStatesPattern platform) around.label (ascii "\x7b" ++ rest) ∧
      Misses namePattern around.label (ascii "\x7b" ++ rest) :=
    fun rest ↦ around.label_plain.misses platform (by decide) rest
  refine parseSupportedStates_of_findAll (fun pair hpair ↦ ?_) ?_ fun hnil ↦ ?_
  · obtain hpair | hpair := List.mem_append.1 hpair
    · exact hbefore.bounds hpair
    · exact found_bounds (fun id hid ↦ by cases hid) hpair
  · rw [htext, findAll_lines (by decide) (by decide) hlines, findAll_of_misses (hlabel _).1,
      findAll_of_misses (hopen _).1, findAll_entries (List.nil_subset _) h around.after_plain,
      List.map_append]
  · have hunnamed := unnamed_of_found_nil h (List.append_eq_nil_iff.1 hnil).2
    have hnames : ∀ line ∈ around.before, Plain line.1 ∧ line.2.name = [] := fun line hline ↦
      ⟨(around.before_mem line hline).1, hunnamed _ (around.before_mem line hline).2⟩
    have hmap := (missesName_entries (List.nil_subset (ascii ", ")) hunnamed _).append
      (missesName_close around.after_plain)
    have hlinesN : ∀ rest, Misses namePattern (lines 0x5D around.before) rest :=
      missesName_lines (by decide) hnames
    have hlabelN : Misses namePattern around.label (ascii "\x7b" ++ (entries [] states ++
        (ascii "\x7d\n" ++ around.after)) ++ []) := by
      rw [List.append_assoc]
      exact (hlabel _).2
    rw [htext]
    exact (findAll_of_noName ((hlinesN _).append (hlabelN.append ((hopen _).2.append hmap)))).2

/-- **Device states**: each text gives the names of exactly those states that have one if and only
if these have identifiers without a sign and, in a map, no state with a name stands behind one that
has neither name nor sign. -/
theorem parseSupportedStates_iff (platform : Platform) (states : List DeviceState)
    (hdistinct : (states.map DeviceState.identifier).Nodup) :
    (Parsed (parseSupportedStates platform (some (printStates states))) states ↔
      Unsigned states) ∧
    ∀ around : Surroundings states,
      Parsed (parseSupportedStates platform (some around.dumpsys)) states ↔
        Unsigned states ∧ Separated states := by
  refine ⟨⟨fun h ↦ ?_, fun h ↦ ?_⟩, fun around ↦ ⟨fun h ↦ ?_, fun ⟨h, hsep⟩ ↦ ?_⟩⟩
  · exact h.unsigned (parseSupportedStates_nonneg _ _)
  · rw [parseSupportedStates_printStates h]
    exact parsed_of_pairs hdistinct fun _ ↦ Iff.rfl
  · have hunsigned := h.unsigned (parseSupportedStates_nonneg _ _)
    refine ⟨hunsigned, ?_⟩
    by_contra hsep
    obtain ⟨s, hs, hname, hmem⟩ := exists_borrowed hsep
    rw [parseSupportedStates_dumpsys around hunsigned] at h
    refine not_parsed_of_pairs hdistinct hs hname ?_ h
    rw [List.map_append]
    exact List.mem_append_right _ hmem
  · rw [parseSupportedStates_dumpsys around h, found_of_separated h hsep]
    refine parsed_of_pairs hdistinct fun pair ↦ ?_
    rw [List.mem_append, or_iff_right_of_imp]
    intro hpair
    obtain ⟨s, hs, hne, rfl⟩ := mem_named.1 hpair
    obtain ⟨line, hline, rfl⟩ := List.mem_map.1 hs
    exact mem_named.2 ⟨_, (around.before_mem line hline).2, hne, rfl⟩

/-- Two states of a phone that folds. -/
def foldStates : List DeviceState :=
  [{ identifier := 0, name := ascii "CLOSED", appAccessible := false,
     cancelWhenRequesterNotOnTop := false, int := by decide, quote_not_mem := by decide,
     newline_not_mem := by decide },
    { identifier := 3, name := ascii "OPENED", appAccessible := true,
      cancelWhenRequesterNotOnTop := false, int := by decide, quote_not_mem := by decide,
      newline_not_mem := by decide }]

/-- What `dumpsys` prints around them on a folded phone. -/
def foldedDumpsys : Surroundings foldStates where
  before := foldStates.head?.toList.map fun s ↦
    (ascii "DEVICE STATE MANAGER (dumpsys device_state)\n  mCommittedState=Optional[", s)
  label := ascii "  mPendingState=Optional.empty\n  mDeviceStates="
  after := ascii "Override Request active: false\n"
  before_mem := by
    intro line hline
    obtain rfl := List.mem_singleton.1 hline
    exact ⟨⟨by decide +kernel, by decide +kernel⟩, List.mem_cons_self⟩
  label_plain := ⟨by decide +kernel, by decide +kernel⟩
  after_plain := ⟨by decide +kernel, by decide +kernel⟩

/-- They are read back. -/
theorem parseSupportedStates_iff_folded :
    Parsed (parseSupportedStates .android (some (printStates foldStates))) foldStates ∧
      Parsed (parseSupportedStates .android (some foldedDumpsys.dumpsys)) foldStates := by
  have hunsigned : Unsigned foldStates := by decide
  have hseparated : Separated foldStates := by decide
  have hboth := parseSupportedStates_iff .android foldStates (by decide)
  exact ⟨hboth.1.2 hunsigned, (hboth.2 foldedDumpsys).2 ⟨hunsigned, hseparated⟩⟩

/-- A state without a name in front of another one. -/
def unnamedStates : List DeviceState :=
  [{ identifier := 0, name := [], appAccessible := false, cancelWhenRequesterNotOnTop := false,
     int := by decide, quote_not_mem := by decide, newline_not_mem := by decide },
    { identifier := 1, name := ascii "OPENED", appAccessible := true,
      cancelWhenRequesterNotOnTop := false, int := by decide, quote_not_mem := by decide,
      newline_not_mem := by decide }]

/-- The map alone. -/
def mapOnly : Surroundings unnamedStates where
  before := []
  label := ascii "mDeviceStates="
  after := []
  before_mem := List.forall_mem_nil _
  label_plain := ⟨by decide, by decide⟩
  after_plain := plain_nil

/-- The first of these states gets the name of the second, which is lost. -/
theorem not_parseSupportedStates : ¬∀ states : List DeviceState,
    (states.map DeviceState.identifier).Nodup →
      Parsed (parseSupportedStates .android (some (printStates states))) states ∧
        ∀ around : Surroundings states,
          Parsed (parseSupportedStates .android (some around.dumpsys)) states := by
  intro h
  have hdistinct : (unnamedStates.map DeviceState.identifier).Nodup := by decide
  have hunsigned : Unsigned unnamedStates := by decide
  have hparsed := (h unnamedStates hdistinct).2 mapOnly
  rw [parseSupportedStates_dumpsys mapOnly hunsigned] at hparsed
  exact not_parsed_of_pairs hdistinct List.mem_cons_self rfl List.mem_cons_self hparsed

end AllRelay.FoldStates
