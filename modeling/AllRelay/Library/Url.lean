import Mathlib.Data.List.Basic
import Mathlib.Data.List.TakeWhile

/-!
# URLs and addresses with ports

What Go's `net/url` makes of a URL (`Url.parse`), `net/netip` of an IPv6 address (`Url.parseAddr`)
and `net` of an address with a port (`Url.splitHostPort`), as functions on byte strings. What an
unchanged URL is made of says `Url.components`, which splits any string in the way of the generic
syntax: a URL that Go parses and that has a host has the components that Go finds
(`parse_components`).
-/

namespace Url

/-- A string of Go. -/
abbrev Str := List UInt8

abbrev dot : UInt8 := 0x2E
abbrev colon : UInt8 := 0x3A
abbrev slash : UInt8 := 0x2F
abbrev question : UInt8 := 0x3F
abbrev hash : UInt8 := 0x23
abbrev atSign : UInt8 := 0x40
abbrev percent : UInt8 := 0x25
abbrev leftBracket : UInt8 := 0x5B
abbrev rightBracket : UInt8 := 0x5D

/-! ### Characters -/

/-- A letter. -/
def isLetter (c : UInt8) : Bool :=
  0x61 ≤ c && c ≤ 0x7A || 0x41 ≤ c && c ≤ 0x5A

/-- A digit. -/
def isDigit (c : UInt8) : Bool :=
  0x30 ≤ c && c ≤ 0x39

/-- A character of a scheme. -/
def isSchemeByte (c : UInt8) : Bool :=
  isLetter c || isDigit c || c == 0x2B || c == 0x2D || c == 0x2E

/-- A character that a host may have: `shouldEscape` says that it stands for itself. -/
def isHostByte (c : UInt8) : Bool :=
  isLetter c || isDigit c ||
    [0x21, 0x24, 0x26, 0x27, 0x28, 0x29, 0x2A, 0x2B, 0x2C, 0x3B, 0x3D, colon, leftBracket,
      rightBracket, 0x3C, 0x3E, 0x22].contains c ||
    [0x2D, 0x5F, 0x2E, 0x7E].contains c

/-- `validUserinfo`, of one character. -/
def isUserinfoByte (c : UInt8) : Bool :=
  isLetter c || isDigit c ||
    [0x2D, 0x2E, 0x5F, colon, 0x7E, 0x21, 0x24, 0x26, 0x27, 0x28, 0x29, 0x2A, 0x2B, 0x2C, 0x3B,
      0x3D, percent, atSign].contains c

/-- `unhex`, nothing for no digit. -/
def unhex (c : UInt8) : Option UInt8 :=
  if isDigit c then some (c - 0x30)
  else if 0x61 ≤ c ∧ c ≤ 0x66 then some (c - 0x61 + 10)
  else if 0x41 ≤ c ∧ c ≤ 0x46 then some (c - 0x41 + 10)
  else none

/-- A digit of a hexadecimal number. -/
def isHexDigit (c : UInt8) : Bool :=
  (unhex c).isSome

/-- A letter of ASCII in lower case. -/
def lower (c : UInt8) : UInt8 :=
  if 0x41 ≤ c ∧ c ≤ 0x5A then c + 0x20 else c

/-! ### Strings -/

/-- `strings.Cut`: what is before the first `c`, and what is behind it. -/
def cut (c : UInt8) : Str → Str × Option Str
  | [] => ([], none)
  | d :: s => if d = c then ([], some s) else (d :: (cut c s).1, (cut c s).2)

/-- What is before the last `c` and behind it. -/
def cutLast (c : UInt8) (s : Str) : Option (Str × Str) :=
  match cut c s.reverse with
  | (_, none) => none
  | (behind, some before) => some (before.reverse, behind.reverse)

/-- What is before the first `%25`, and the string from there on. -/
def cutZone : Str → Option (Str × Str)
  | [] => none
  | c :: s =>
    if [percent, 0x32, 0x35] <+: c :: s then some ([], c :: s)
    else (cutZone s).map fun (before, zone) ↦ (c :: before, zone)

/-- The part of a URL that is unescaped. -/
inductive Encoding where
  | host
  | zone
  /-- One that may have any character. -/
  | other
deriving DecidableEq, Repr

/-- `unescape`. -/
def unescape (mode : Encoding) : Str → Option Str
  | [] => some []
  | 0x25 :: h :: l :: s => do
    let high ← unhex h
    let low ← unhex l
    let v := high <<< 4 ||| low
    -- a host may escape no ASCII character but `%`, a zone those that it may not have, and blanks
    if mode = .host ∧ high < 8 ∧ ¬(h = 0x32 ∧ l = 0x35) then none
    else if mode = .zone ∧ ¬(h = 0x32 ∧ l = 0x35) ∧ v ≠ 0x20 ∧ !isHostByte v then none
    else
      let rest ← unescape mode s
      some (v :: rest)
  | c :: s =>
    if c = percent then none
    else if mode ≠ .other ∧ c < 0x80 ∧ !isHostByte c then none
    else do
      let rest ← unescape mode s
      some (c :: rest)

/-- The characters of white space, in UTF-8. -/
def spaces : List Str :=
  [[0x09], [0x0A], [0x0B], [0x0C], [0x0D], [0x20], [0xC2, 0x85], [0xC2, 0xA0], [0xE1, 0x9A, 0x80],
    [0xE2, 0x80, 0x80], [0xE2, 0x80, 0x81], [0xE2, 0x80, 0x82], [0xE2, 0x80, 0x83],
    [0xE2, 0x80, 0x84], [0xE2, 0x80, 0x85], [0xE2, 0x80, 0x86], [0xE2, 0x80, 0x87],
    [0xE2, 0x80, 0x88], [0xE2, 0x80, 0x89], [0xE2, 0x80, 0x8A], [0xE2, 0x80, 0xA8],
    [0xE2, 0x80, 0xA9], [0xE2, 0x80, 0xAF], [0xE2, 0x81, 0x9F], [0xE3, 0x80, 0x80]]

/-- The string without the white space in front, at most `fuel` characters of it. -/
def trimLeft : ℕ → Str → Str
  | 0, s => s
  | fuel + 1, s =>
    match spaces.find? (· <+: s) with
    | none => s
    | some space => trimLeft fuel (s.drop space.length)

/-- The string without the white space at the end, at most `fuel` characters of it. -/
def trimRight : ℕ → Str → Str
  | 0, s => s
  | fuel + 1, s =>
    match spaces.find? (· <:+ s) with
    | none => s
    | some space => trimRight fuel (s.take (s.length - space.length))

/-- `strings.TrimSpace`. -/
def trimSpace (s : Str) : Str :=
  trimRight s.length (trimLeft s.length s)

/-! ### `netip.ParseAddr` -/

/-- `parseIPv4Fields`, behind `pos` fields and `digLen` digits of the next, whose value is `val`:
whether an address stands there. -/
def parseIPv4Fields (pos digLen val : ℕ) : Str → Bool
  | [] => digLen ≠ 0 && pos = 3
  | c :: s =>
    if isDigit c then
      if digLen = 1 ∧ val = 0 then false
      else
        let val := val * 10 + (c.toNat - 0x30)
        if 255 < val then false else parseIPv4Fields pos (digLen + 1) val s
    else if c = dot then
      if digLen = 0 ∨ s = [] ∨ pos = 3 then false else parseIPv4Fields (pos + 1) 0 0 s
    else false

/-- Whether `::` stands for a field at least: `left` fields were not written. -/
def expands (left : ℕ) (ellipsis : Bool) : Bool :=
  if left = 0 then !ellipsis else ellipsis

/-- The loop of `parseIPv6`, in front of a field, with room for `left` fields. -/
def parseIPv6Fields : ℕ → Bool → Str → Bool
  | 0, _, _ => false
  | left + 1, ellipsis, s =>
    let digits := s.takeWhile isHexDigit
    if digits = [] ∨ 4 < digits.length then false
    else
      match s.dropWhile isHexDigit with
      | [] => expands left ellipsis
      | c :: rest =>
        if c = dot then
          -- an IPv4 address stands for the last two fields
          if (!ellipsis ∧ left ≠ 1) ∨ left = 0 then false
          else parseIPv4Fields 0 0 0 s && expands (left - 1) ellipsis
        else if c ≠ colon then false
        else
          match rest with
          | [] => false
          | d :: tail =>
            if d ≠ colon then parseIPv6Fields left ellipsis (d :: tail)
            else if ellipsis then false
            else if tail = [] then expands left true
            else parseIPv6Fields left true tail

/-- `parseIPv6`, without a zone. -/
def parseIPv6 (s : Str) : Bool :=
  if [colon, colon] <+: s then s.length = 2 || parseIPv6Fields 8 true (s.drop 2)
  else parseIPv6Fields 8 false s

/-- `netip.ParseAddr`: whether it finds an IPv6 address. -/
def parseAddr (s : Str) : Bool :=
  match s.find? fun c ↦ c == dot || c == colon || c == percent with
  | none => false
  | some c =>
    c == colon &&
      match cut percent s with
      | (addr, none) => parseIPv6 addr
      | (addr, some zone) => zone ≠ [] && parseIPv6 addr

/-! ### `url.Parse` -/

/-- `url.URL`, as far as it says what the URL names. -/
structure URL where
  scheme : Str
  /-- The user information as it was written. -/
  user : Option Str
  host : Str
  path : Str
  rawQuery : Str
  fragment : Str
deriving DecidableEq, Repr

/-- `getScheme`: the scheme, empty if there is none, and the rest. -/
def getScheme (rawURL : Str) : Option (Str × Str) :=
  match rawURL with
  | [] => some ([], rawURL)
  | c :: _ =>
    if c = colon then none
    else if !isLetter c then some ([], rawURL)
    else
      match rawURL.dropWhile isSchemeByte with
      | [] => some ([], rawURL)
      | d :: rest =>
        if d = colon then some (rawURL.takeWhile isSchemeByte, rest) else some ([], rawURL)

/-- `validOptionalPort`. -/
def validOptionalPort : Str → Bool
  | [] => true
  | c :: port => c = colon && port.all isDigit

/-- What `parseHost` makes of a text in brackets: behind `%25` stands a zone. -/
def unescapeHostname (hostname : Str) : Option Str :=
  match cutZone hostname with
  | none => unescape .host hostname
  | some (before, zone) => do
    let hostPart ← unescape .host before
    let zonePart ← unescape .zone zone
    some (hostPart ++ zonePart)

/-- `parseHost`, of the releases that want a bracket in front and an IPv6 address behind it. -/
def parseHost (host : Str) : Option Str :=
  match cutLast leftBracket host with
  | some (front, _) =>
    if front ≠ [] then none
    else
      match cutLast rightBracket host.tail with
      | none => none
      | some (hostname, colonPort) =>
        if !validOptionalPort colonPort then none
        else do
          let colonPort ← unescape .host colonPort
          let hostname ← unescapeHostname hostname
          if !parseAddr hostname then none
          else some (leftBracket :: (hostname ++ rightBracket :: colonPort))
  | none =>
    match cutLast colon host with
    | none => unescape .host host
    | some (_, port) => if !validOptionalPort (colon :: port) then none else unescape .host host

/-- `parseAuthority`: the user information and the host. -/
def parseAuthority (authority : Str) : Option (Option Str × Str) :=
  match cutLast atSign authority with
  | none => do
    let host ← parseHost authority
    some (none, host)
  | some (userinfo, host) => do
    let host ← parseHost host
    if !userinfo.all isUserinfoByte then none
    else
      let (username, password) := cut colon userinfo
      let _ ← unescape .other username
      let _ ← unescape .other (password.getD [])
      some (some userinfo, host)

/-- `parse`, without the fragment. -/
def parseNoFragment (rawURL : Str) : Option URL :=
  if rawURL.any fun c ↦ c < 0x20 || c == 0x7F then none
  else if rawURL = [0x2A] then some ⟨[], none, [], [0x2A], [], []⟩
  else do
    let (scheme, rest) ← getScheme rawURL
    let scheme := scheme.map lower
    -- a single `?` at the end sets `ForceQuery` and leaves no query either
    let (rest, query) := cut question rest
    let rawQuery := query.getD []
    if rest.head? ≠ some slash ∧ scheme ≠ [] then
      -- what is behind the scheme is taken as a whole
      some ⟨scheme, none, [], [], rawQuery, []⟩
    else if rest.head? ≠ some slash ∧ colon ∈ (cut slash rest).1 then none
    else if (scheme ≠ [] ∨ ¬[slash, slash, slash] <+: rest) ∧ [slash, slash] <+: rest then do
      let authority := (rest.drop 2).takeWhile (· ≠ slash)
      let (user, host) ← parseAuthority authority
      let path ← unescape .other ((rest.drop 2).dropWhile (· ≠ slash))
      some ⟨scheme, user, host, path, rawQuery, []⟩
    else do
      let path ← unescape .other rest
      some ⟨scheme, none, [], path, rawQuery, []⟩

/-- `url.Parse`. -/
def parse (rawURL : Str) : Option URL := do
  let (rawURL, fragment) := cut hash rawURL
  let url ← parseNoFragment rawURL
  let fragment ← unescape .other (fragment.getD [])
  some { url with fragment := fragment }

/-! ### `net.SplitHostPort` -/

/-- `net.SplitHostPort`, nothing when it fails. -/
def splitHostPort (hostport : Str) : Option (Str × Str) :=
  match cutLast colon hostport with
  | none => none
  | some (front, port) =>
    if hostport.head? = some leftBracket then
      match cut rightBracket hostport with
      | (_, none) => none
      | (inside, some _) =>
        -- the first bracket has to stand right before the last colon
        if inside ++ [rightBracket] ≠ front then none
        else if leftBracket ∈ hostport.tail ∨ rightBracket ∈ port then none
        else some (inside.tail, port)
    else if colon ∈ front then none
    else if leftBracket ∈ hostport ∨ rightBracket ∈ hostport then none
    else some (front, port)

/-! ### Components -/

/-- What a string is made of in the generic syntax of URIs; the parts are as they were written. -/
structure Components where
  scheme : Option Str
  authority : Option Str
  path : Str
  query : Option Str
  fragment : Option Str
deriving DecidableEq, Repr

/-- The scheme, up to the first colon if no slash is before it, and the rest. -/
def cutScheme (s : Str) : Option Str × Str :=
  match cut colon s with
  | (_, none) => (none, s)
  | (scheme, some rest) => if scheme = [] ∨ slash ∈ scheme then (none, s) else (some scheme, rest)

/-- The components of a string. -/
def components (s : Str) : Components :=
  let (s, fragment) := cut hash s
  let (s, query) := cut question s
  let (scheme, rest) := cutScheme s
  if [slash, slash] <+: rest then
    ⟨scheme, some ((rest.drop 2).takeWhile (· ≠ slash)), (rest.drop 2).dropWhile (· ≠ slash), query,
      fragment⟩
  else ⟨scheme, none, rest, query, fragment⟩

variable {c : UInt8} {s t : Str}

/-! ### Kinds of characters -/

/-- A fact about every byte, checked one by one. -/
theorem forall_byte {P : UInt8 → Prop} (h : ∀ n : Fin 256, P (UInt8.ofNat n)) (c : UInt8) :
    P c := by
  have hc := h ⟨c.toNat, c.toNat_lt⟩
  rwa [UInt8.ofNat_toNat] at hc

/-- A character of a list has the kind of all of them. -/
theorem kind_of_contains {kind : UInt8 → Bool} (hs : s.all kind = true)
    (h : s.contains c = true) : kind c = true :=
  List.all_eq_true.1 hs c (List.contains_iff_mem.1 h)

/-- A character of a kind is none of those that are not of the kind. -/
theorem notMem_of_kind {kind : UInt8 → Bool} (hs : s.any kind = false)
    (h : kind c = true) : c ∉ s := by
  intro hc
  rw [List.any_eq_true.2 ⟨c, hc, h⟩] at hs
  cases hs

/-! ### Cutting -/

theorem cut_append (h : c ∉ s) (t : Str) : cut c (s ++ t) = (s ++ (cut c t).1, (cut c t).2) := by
  induction s with
  | nil => rfl
  | cons d s ih =>
    obtain ⟨hd, hs⟩ := not_or.mp (mt List.mem_cons.mpr h)
    rw [List.cons_append, cut, if_neg (Ne.symm hd), ih hs]
    rfl

theorem cut_of_notMem (h : c ∉ s) : cut c s = (s, none) := by
  have happend := cut_append h []
  rwa [List.append_nil, cut, List.append_nil] at happend

theorem cut_append_cons (h : c ∉ s) (t : Str) : cut c (s ++ c :: t) = (s, some t) := by
  rw [cut_append h, cut, if_pos rfl, List.append_nil]

/-- What `cut` returns. -/
theorem cut_cases (c : UInt8) (s : Str) :
    (c ∉ s ∧ cut c s = (s, none)) ∨
      ∃ before behind,
        s = before ++ c :: behind ∧ c ∉ before ∧ cut c s = (before, some behind) := by
  by_cases h : c ∈ s
  · obtain ⟨before, behind, hs, hbefore⟩ := List.eq_append_cons_of_mem h
    exact .inr ⟨before, behind, hs, hbefore, hs ▸ cut_append_cons hbefore behind⟩
  · exact .inl ⟨h, cut_of_notMem h⟩

theorem cutLast_of_notMem (h : c ∉ s) : cutLast c s = none := by
  rw [cutLast, cut_of_notMem (mt List.mem_reverse.mp h)]

theorem cutLast_append_cons (s : Str) (h : c ∉ t) : cutLast c (s ++ c :: t) = some (s, t) := by
  have hreverse : (s ++ c :: t).reverse = t.reverse ++ c :: s.reverse := by simp
  rw [cutLast, hreverse, cut_append_cons (mt List.mem_reverse.mp h)]
  simp

theorem notMem_append_cons {d : UInt8} (hs : c ∉ s) (hd : c ≠ d) (ht : c ∉ t) :
    c ∉ s ++ d :: t := by
  rw [List.mem_append, List.mem_cons]
  tauto

/-- What `cutLast` returns. -/
theorem cutLast_cases (c : UInt8) (s : Str) :
    (c ∉ s ∧ cutLast c s = none) ∨
      ∃ before behind,
        s = before ++ c :: behind ∧ c ∉ behind ∧ cutLast c s = some (before, behind) := by
  obtain ⟨hc, -⟩ | ⟨behind, before, hs, hbehind, -⟩ := cut_cases c s.reverse
  · exact .inl ⟨mt List.mem_reverse.mpr hc, cutLast_of_notMem (mt List.mem_reverse.mpr hc)⟩
  · have hs' : s = before.reverse ++ c :: behind.reverse := by
      rw [← List.reverse_reverse s, hs]
      simp
    have hbehind' : c ∉ behind.reverse := mt List.mem_reverse.mp hbehind
    exact .inr ⟨before.reverse, behind.reverse, hs', hbehind', hs' ▸ cutLast_append_cons _ hbehind'⟩

theorem cutZone_of_notMem (h : percent ∉ s) : cutZone s = none := by
  induction s with
  | nil => rfl
  | cons c s ih =>
    obtain ⟨hc, hs⟩ := not_or.mp (mt List.mem_cons.mpr h)
    rw [cutZone, if_neg, ih hs]
    · rfl
    · rintro ⟨t, ht⟩
      cases ht
      exact hc rfl

/-! ### Unescaping -/

variable {mode : Encoding} {url : URL}

theorem unescape_cons (hc : c ≠ percent) (s : Str) :
    unescape mode (c :: s) =
      if mode ≠ .other ∧ c < 0x80 ∧ !isHostByte c then none
      else (unescape mode s).map (c :: ·) := by
  rw [unescape, if_neg hc]
  · by_cases hbyte : mode ≠ .other ∧ c < 0x80 ∧ !isHostByte c
    · rw [if_pos hbyte, if_pos hbyte]
    · rw [if_neg hbyte, if_neg hbyte]
      cases unescape mode s <;> rfl
  · intro h l rest hpercent
    exact absurd hpercent hc

/-- Characters that stand for themselves. -/
theorem unescape_self (h : ∀ c ∈ s, c ≠ percent ∧ (mode = .other ∨ isHostByte c = true)) :
    unescape mode s = some s := by
  induction s with
  | nil => rfl
  | cons c s ih =>
    obtain ⟨hc, hmode⟩ := h c List.mem_cons_self
    rw [unescape_cons hc, if_neg, ih fun d hd ↦ h d (List.mem_cons_of_mem c hd)]
    · rfl
    · rintro ⟨hother, -, hbyte⟩
      obtain hmode | hmode := hmode
      · exact hother hmode
      · rw [hmode] at hbyte
        cases hbyte

/-- Nothing is unescaped to nothing. -/
theorem eq_nil_of_unescape (h : unescape mode s = some []) : s = [] := by
  fun_cases unescape mode s with
  | case1 => rfl
  | case2 high low s =>
    rw [unescape] at h
    obtain ⟨_, -, h⟩ := Option.bind_eq_some_iff.mp h
    obtain ⟨_, -, h⟩ := Option.bind_eq_some_iff.mp h
    dsimp only at h
    split_ifs at h
    obtain ⟨_, -, h⟩ := Option.bind_eq_some_iff.mp h
    cases h
  | case3 s hlong =>
    rw [unescape, if_pos rfl] at h
    · cases h
    · exact hlong
  | case4 c s hlong hc hbyte =>
    rw [unescape_cons hc, if_pos hbyte] at h
    cases h
  | case5 c s hlong hc hbyte =>
    rw [unescape_cons hc, if_neg hbyte] at h
    obtain ⟨_, -, h⟩ := Option.map_eq_some_iff.mp h
    cases h

theorem eq_nil_of_unescape_slash (h : unescape .other (slash :: s) = some [slash]) : s = [] := by
  rw [unescape_cons (by decide), if_neg (by simp)] at h
  obtain ⟨rest, hrest, hcons⟩ := Option.map_eq_some_iff.mp h
  cases hcons
  exact eq_nil_of_unescape hrest

/-! ### White space -/

/-- A visible character of ASCII. -/
def isVisible (c : UInt8) : Bool :=
  0x21 ≤ c && c ≤ 0x7E

theorem spaces_invisible :
    ∀ space ∈ spaces, space ≠ [] ∧ (∀ c ∈ space.head?, !isVisible c) ∧
      ∀ c ∈ space.getLast?, !isVisible c := by
  decide +kernel

theorem trimLeft_of_visible (h : ∀ c ∈ s.head?, isVisible c) (fuel : ℕ) :
    trimLeft fuel s = s := by
  cases fuel with
  | zero => rfl
  | succ fuel =>
    have hfind : spaces.find? (· <+: s) = none := by
      refine List.find?_eq_none.mpr fun space hspace hprefix ↦ ?_
      obtain ⟨t, rfl⟩ := of_decide_eq_true hprefix
      obtain ⟨hne, hhead, -⟩ := spaces_invisible space hspace
      obtain ⟨c, space, rfl⟩ := List.exists_cons_of_ne_nil hne
      have hc := hhead c rfl
      rw [h c rfl] at hc
      cases hc
    rw [trimLeft, hfind]

theorem trimRight_of_visible (h : ∀ c ∈ s.getLast?, isVisible c) (fuel : ℕ) :
    trimRight fuel s = s := by
  cases fuel with
  | zero => rfl
  | succ fuel =>
    have hfind : spaces.find? (· <:+ s) = none := by
      refine List.find?_eq_none.mpr fun space hspace hsuffix ↦ ?_
      obtain ⟨t, rfl⟩ := of_decide_eq_true hsuffix
      obtain ⟨hne, -, hlast⟩ := spaces_invisible space hspace
      have hget := List.getLast?_eq_some_getLast hne
      have hc := hlast _ hget
      rw [h (space.getLast hne) (by rw [List.getLast?_append, hget]; rfl)] at hc
      cases hc
    rw [trimRight, hfind]

theorem trimSpace_of_visible (h : ∀ c ∈ s, isVisible c) : trimSpace s = s := by
  rw [trimSpace, trimLeft_of_visible fun c hc ↦ h c (List.mem_of_mem_head? hc),
    trimRight_of_visible fun c hc ↦ h c (List.mem_of_mem_getLast? hc)]

/-! ### Parsing -/

theorem not_isSchemeByte : ∀ c ∈ [colon, slash, question, hash], isSchemeByte c = false := by
  decide +kernel

theorem notMem_of_isSchemeByte (hs : ∀ c ∈ s, isSchemeByte c) (h : isSchemeByte c = false) :
    c ∉ s := by
  intro hc
  rw [hs c hc] at h
  cases h

/-- A scheme that is found stands before the first colon. -/
theorem getScheme_spec {scheme rest : Str} (h : getScheme s = some (scheme, rest))
    (hne : scheme ≠ []) : s = scheme ++ colon :: rest ∧ ∀ c ∈ scheme, isSchemeByte c := by
  rw [getScheme.eq_def] at h
  cases s with
  | nil =>
    cases h
    exact absurd rfl hne
  | cons c s =>
    dsimp only at h
    split_ifs at h
    · cases h
      exact absurd rfl hne
    · cases hrest : (c :: s).dropWhile isSchemeByte with
      | nil =>
        rw [hrest] at h
        cases h
        exact absurd rfl hne
      | cons d tail =>
        rw [hrest] at h
        dsimp only at h
        split_ifs at h with hd
        · cases h
          refine ⟨?_, fun c hc ↦ List.mem_takeWhile_imp hc⟩
          rw [← hd, ← hrest, List.takeWhile_append_dropWhile]
        · cases h
          exact absurd rfl hne

theorem getScheme_append (hletter : ∀ c ∈ s.head?, isLetter c) (hne : s ≠ [])
    (hs : ∀ c ∈ s, isSchemeByte c) (rest : Str) :
    getScheme (s ++ colon :: rest) = some (s, rest) := by
  obtain ⟨c, s, rfl⟩ := List.exists_cons_of_ne_nil hne
  have hc : isLetter c = true := hletter c rfl
  have hcolon : c ≠ colon := by
    rintro rfl
    cases hc
  have hdrop : (c :: s ++ colon :: rest).dropWhile isSchemeByte = colon :: rest := by
    rw [List.dropWhile_append_of_pos hs]
    rfl
  have htake : (c :: s ++ colon :: rest).takeWhile isSchemeByte = c :: s := by
    rw [List.takeWhile_append_of_pos hs]
    exact List.append_nil _
  rw [getScheme.eq_def, hdrop, htake]
  simp [hcolon, hc]

/-- Where there is no user information, there is no at sign. -/
theorem notMem_of_parseAuthority {authority host : Str}
    (h : parseAuthority authority = some (none, host)) : atSign ∉ authority := by
  obtain ⟨hat, -⟩ | ⟨before, behind, -, -, hcut⟩ := cutLast_cases atSign authority
  · exact hat
  · rw [parseAuthority, hcut] at h
    obtain ⟨_, -, h⟩ := Option.bind_eq_some_iff.mp h
    split_ifs at h
    obtain ⟨_, -, h⟩ := Option.bind_eq_some_iff.mp h
    obtain ⟨_, -, h⟩ := Option.bind_eq_some_iff.mp h
    cases h

/-- The empty path and a slash are unescaped from nothing else. -/
theorem eq_of_unescape_path (hslash : ∀ c ∈ s.head?, c = slash) (h : unescape .other s = some t)
    (ht : t = [] ∨ t = [slash]) : s = t := by
  obtain rfl | rfl := ht
  · exact eq_nil_of_unescape h
  · cases s with
    | nil => cases h
    | cons c s =>
      rw [hslash c rfl] at h ⊢
      rw [eq_nil_of_unescape_slash h]

/-- A URL with a scheme and a host has two slashes behind the scheme's colon. -/
theorem parseNoFragment_spec (h : parseNoFragment s = some url) (hscheme : url.scheme ≠ [])
    (hhost : url.host ≠ []) :
    ∃ scheme rest tail query,
      s = scheme ++ colon :: rest ∧ (∀ c ∈ scheme, isSchemeByte c) ∧
      scheme.map lower = url.scheme ∧ cut question rest = (slash :: slash :: tail, query) ∧
      parseAuthority (tail.takeWhile (· ≠ slash)) = some (url.user, url.host) ∧
      unescape .other (tail.dropWhile (· ≠ slash)) = some url.path ∧
      query.getD [] = url.rawQuery := by
  rw [parseNoFragment] at h
  split_ifs at h
  · cases h
    exact absurd rfl hhost
  · obtain ⟨⟨scheme, rest⟩, hget, h⟩ := Option.bind_eq_some_iff.mp h
    rcases hcut : cut question rest with ⟨front, query⟩
    dsimp only at h
    rw [hcut] at h
    dsimp only at h
    split_ifs at h with hslash hcolon hauthority
    · cases h
      exact absurd rfl hhost
    · obtain ⟨⟨user, host⟩, hparse, h⟩ := Option.bind_eq_some_iff.mp h
      obtain ⟨path, hpath, h⟩ := Option.bind_eq_some_iff.mp h
      cases h
      obtain ⟨tail, rfl⟩ := hauthority.2
      obtain ⟨hs, hbytes⟩ := getScheme_spec hget (mt List.map_eq_nil_iff.mpr hscheme)
      exact ⟨scheme, rest, tail, query, hs, hbytes, rfl, hcut, hparse, hpath, rfl⟩
    · obtain ⟨path, -, h⟩ := Option.bind_eq_some_iff.mp h
      cases h
      exact absurd rfl hhost

/-- The components of a URL with a scheme and a host are those that the parser finds. -/
theorem parse_components (h : parse s = some url) (hscheme : url.scheme ≠ [])
    (hhost : url.host ≠ []) :
    ∃ scheme authority, (components s).scheme = some scheme ∧ (∀ c ∈ scheme, isSchemeByte c) ∧
      scheme.map lower = url.scheme ∧ (components s).authority = some authority ∧
      parseAuthority authority = some (url.user, url.host) ∧
      (∀ c ∈ (components s).path.head?, c = slash) ∧
      unescape .other (components s).path = some url.path ∧
      (components s).query.getD [] = url.rawQuery ∧
      unescape .other ((components s).fragment.getD []) = some url.fragment := by
  rw [parse] at h
  rcases hcut : cut hash s with ⟨front, fragment⟩
  rw [hcut] at h
  obtain ⟨url, hparse, h⟩ := Option.bind_eq_some_iff.mp h
  obtain ⟨fragment', hfragment, h⟩ := Option.bind_eq_some_iff.mp h
  cases h
  obtain ⟨scheme, rest, tail, query, rfl, hbytes, hlower, hquery, hauthority, hpath, hraw⟩ :=
    parseNoFragment_spec hparse hscheme hhost
  have hnotMem : ∀ c ∈ [colon, slash, question, hash], c ∉ scheme := fun c hc ↦
    notMem_of_isSchemeByte hbytes (not_isSchemeByte c hc)
  have hne : scheme ≠ [] := by
    rintro rfl
    exact hscheme hlower.symm
  have hcomponents : components s = ⟨some scheme, some (tail.takeWhile (· ≠ slash)),
      tail.dropWhile (· ≠ slash), query, fragment⟩ := by
    have hfront : cut question (scheme ++ colon :: rest) =
        (scheme ++ colon :: slash :: slash :: tail, query) := by
      rw [cut_append (hnotMem question (by decide)), cut, if_neg (by decide), hquery]
    have hscheme : cutScheme (scheme ++ colon :: slash :: slash :: tail) =
        (some scheme, slash :: slash :: tail) := by
      rw [cutScheme, cut_append_cons (hnotMem colon (by decide))]
      exact if_neg (not_or.mpr ⟨hne, hnotMem slash (by decide)⟩)
    rw [components, hcut]
    dsimp only
    rw [hfront]
    dsimp only
    rw [hscheme]
    exact if_pos ⟨tail, rfl⟩
  have hslash : ∀ c ∈ (tail.dropWhile (· ≠ slash)).head?, c = slash := by
    intro c hc
    have hhead := List.head?_dropWhile_not (decide <| · ≠ slash) tail
    rw [Option.mem_def.mp hc] at hhead
    simpa using hhead
  rw [hcomponents]
  exact ⟨scheme, _, rfl, hbytes, hlower, rfl, hauthority, hslash, hpath, hraw, hfragment⟩

/-! ### Building -/

/-- A component behind the character that announces it, if there is one. -/
def announced (c : UInt8) (component : Option Str) : Str :=
  component.elim [] (c :: ·)

theorem cut_announced (h : c ∉ s) (component : Option Str) :
    cut c (s ++ announced c component) = (s, component) := by
  cases component with
  | none => rw [announced, Option.elim, List.append_nil, cut_of_notMem h]
  | some t => exact cut_append_cons h t

theorem isVisible_of_le {lo hi : UInt8} (hlo : 0x21 ≤ lo) (hhi : hi ≤ 0x7E)
    (h : lo ≤ c ∧ c ≤ hi) : isVisible c = true := by
  rw [isVisible, Bool.and_eq_true, decide_eq_true_eq, decide_eq_true_eq]
  exact ⟨UInt8.le_trans hlo h.1, UInt8.le_trans h.2 hhi⟩

theorem isVisible_of_isDigit (h : isDigit c = true) : isVisible c = true := by
  rw [isDigit, Bool.and_eq_true, decide_eq_true_eq, decide_eq_true_eq] at h
  exact isVisible_of_le (by decide) (by decide) h

theorem isVisible_of_isLetter (h : isLetter c = true) : isVisible c = true := by
  simp only [isLetter, Bool.or_eq_true, Bool.and_eq_true, decide_eq_true_eq] at h
  obtain h | h := h
  · exact isVisible_of_le (by decide) (by decide) h
  · exact isVisible_of_le (by decide) (by decide) h

theorem isVisible_of_isSchemeByte (c : UInt8) (h : isSchemeByte c = true) : isVisible c = true := by
  simp only [isSchemeByte, Bool.or_eq_true, beq_iff_eq] at h
  obtain (((h | h) | rfl) | rfl) | rfl := h
  · exact isVisible_of_isLetter h
  · exact isVisible_of_isDigit h
  · decide
  · decide
  · decide

theorem not_control_of_isVisible (c : UInt8) (h : isVisible c = true) :
    (c < 0x20 || c == 0x7F) = false := by
  rw [isVisible, Bool.and_eq_true, decide_eq_true_eq, decide_eq_true_eq] at h
  rw [Bool.or_eq_false_iff, decide_eq_false_iff_not, beq_eq_false_iff_ne]
  refine ⟨UInt8.not_lt.2 (UInt8.le_trans (by decide) h.1), ?_⟩
  rintro rfl
  exact absurd h.2 (by decide)

/-- The parts of a URL `scheme://authority path` that end where the next one begins. -/
structure Hierarchical (scheme authority path : Str) : Prop where
  scheme_ne_nil : scheme ≠ []
  letter : ∀ c ∈ scheme.head?, isLetter c
  scheme_bytes : ∀ c ∈ scheme, isSchemeByte c
  authority_bytes : ∀ c ∈ authority, isVisible c ∧ c ∉ [slash, question, hash]
  slash_first : ∀ c ∈ path.head?, c = slash
  path_bytes : ∀ c ∈ path, isVisible c ∧ c ∉ [question, hash]

namespace Hierarchical

variable {scheme authority path user host path' : Str} {userinfo query fragment : Option Str}

/-- The URL of these parts. -/
def text (_ : Hierarchical scheme authority path) : Str :=
  scheme ++ colon :: slash :: slash :: (authority ++ path)

variable (h : Hierarchical scheme authority path)

theorem text_bytes : ∀ c ∈ h.text, isVisible c ∧ c ∉ [question, hash] := by
  intro c hc
  rw [text, List.mem_append, List.mem_cons, List.mem_cons, List.mem_cons, List.mem_append] at hc
  rcases hc with hc | rfl | rfl | rfl | hc | hc
  · refine ⟨isVisible_of_isSchemeByte c (h.scheme_bytes c hc), fun hmem ↦ ?_⟩
    have hreserved : c ∈ [colon, slash, question, hash] :=
      List.mem_cons_of_mem _ (List.mem_cons_of_mem _ hmem)
    exact notMem_of_isSchemeByte h.scheme_bytes (not_isSchemeByte c hreserved) hc
  · decide
  · decide
  · decide
  · obtain ⟨hvisible, hnotMem⟩ := h.authority_bytes c hc
    exact ⟨hvisible, mt (List.mem_cons_of_mem slash) hnotMem⟩
  · exact h.path_bytes c hc

theorem takeWhile_slash (h : Hierarchical scheme authority path) :
    (authority ++ path).takeWhile (· ≠ slash) = authority := by
  have hauthority : ∀ c ∈ authority, decide (c ≠ slash) = true := fun c hc ↦
    decide_eq_true fun hslash ↦ (h.authority_bytes c hc).2 (by rw [hslash]; decide)
  rw [List.takeWhile_append_of_pos hauthority]
  cases hpath : path with
  | nil => exact List.append_nil _
  | cons c path =>
    rw [h.slash_first c (by rw [hpath]; rfl)]
    exact List.append_nil _

theorem dropWhile_slash (h : Hierarchical scheme authority path) :
    (authority ++ path).dropWhile (· ≠ slash) = path := by
  have happend : (authority ++ path).takeWhile (· ≠ slash) ++
      (authority ++ path).dropWhile (· ≠ slash) = authority ++ path :=
    List.takeWhile_append_dropWhile
  rw [h.takeWhile_slash] at happend
  exact List.append_cancel_left happend

/-- What stands before the fragment, with a query. -/
theorem front_bytes (hquery : ∀ t ∈ query, ∀ c ∈ t, isVisible c ∧ c ≠ hash) :
    ∀ c ∈ h.text ++ announced question query, isVisible c ∧ c ≠ hash := by
  intro c hc
  obtain hc | hc := List.mem_append.mp hc
  · obtain ⟨hvisible, hnotMem⟩ := h.text_bytes c hc
    exact ⟨hvisible, fun hhash ↦ hnotMem (by rw [hhash]; decide)⟩
  · cases query with
    | none => cases hc
    | some t =>
      obtain rfl | hc := List.mem_cons.mp hc
      · decide
      · exact hquery t rfl c hc

theorem parseNoFragment_text (hquery : ∀ t ∈ query, ∀ c ∈ t, isVisible c ∧ c ≠ hash)
    (hparse : parseAuthority authority = some (userinfo, host))
    (hpath : unescape .other path = some path') :
    parseNoFragment (h.text ++ announced question query) =
      some ⟨scheme.map lower, userinfo, host, path', query.getD [], []⟩ := by
  have hcontrol : ¬((h.text ++ announced question query).any fun c ↦ c < 0x20 || c == 0x7F) := by
    intro hany
    obtain ⟨c, hc, hcontrol⟩ := List.any_eq_true.mp hany
    rw [not_control_of_isVisible c (h.front_bytes hquery c hc).1] at hcontrol
    cases hcontrol
  have hstar : h.text ++ announced question query ≠ [0x2A] := by
    intro heq
    have hlength := congrArg List.length heq
    simp only [text, List.length_append, List.length_cons, List.length_nil] at hlength
    omega
  have hcut : cut question (slash :: slash :: (authority ++ path) ++ announced question query) =
      (slash :: slash :: (authority ++ path), query) := by
    refine cut_announced (fun hmem ↦ ?_) query
    have htext : question ∈ h.text := List.mem_append_right _ (List.mem_cons_of_mem _ hmem)
    exact (h.text_bytes _ htext).2 (by decide)
  rw [parseNoFragment, if_neg hcontrol, if_neg hstar, text, List.append_assoc, List.cons_append,
    getScheme_append h.letter h.scheme_ne_nil h.scheme_bytes]
  dsimp only [Option.bind_eq_bind, Option.bind_some]
  rw [hcut]
  dsimp only
  rw [if_neg fun hslash ↦ hslash.1 rfl, if_neg fun hslash ↦ hslash.1 rfl,
    if_pos ⟨.inl (mt List.map_eq_nil_iff.mp h.scheme_ne_nil), _, rfl⟩]
  dsimp only [List.drop]
  rw [h.takeWhile_slash, h.dropWhile_slash, hparse, hpath]
  rfl

/-- What the parser makes of a URL with a scheme and an authority. -/
theorem parse_text (hquery : ∀ t ∈ query, ∀ c ∈ t, isVisible c ∧ c ≠ hash)
    (hparse : parseAuthority authority = some (userinfo, host))
    (hpath : unescape .other path = some path')
    (hfragment : unescape .other (fragment.getD []) = some t) :
    parse (h.text ++ announced question query ++ announced hash fragment) =
      some ⟨scheme.map lower, userinfo, host, path', query.getD [], t⟩ := by
  rw [parse, cut_announced fun hmem ↦ (h.front_bytes hquery _ hmem).2 rfl]
  dsimp only
  rw [h.parseNoFragment_text hquery hparse hpath, hfragment]
  rfl

end Hierarchical

/-! ### Hosts with ports -/

/-- A character of a name, or of an IPv4 address. -/
def isNameByte (c : UInt8) : Bool :=
  isLetter c || isDigit c ||
    [0x2D, 0x2E, 0x5F, 0x7E, 0x21, 0x24, 0x26, 0x27, 0x28, 0x29, 0x2A, 0x2B, 0x2C, 0x3B,
      0x3D].contains c

/-- A character of an IPv6 address. -/
def isAddressByte (c : UInt8) : Bool :=
  isHexDigit c || c == colon || c == dot

/-- The host of a URL. -/
inductive Host where
  /-- A name or an IPv4 address. -/
  | name (text : Str) (valid : text ≠ [] ∧ ∀ c ∈ text, isNameByte c)
  /-- An IPv6 address without a zone, which is written in brackets. -/
  | literal (text : Str) (valid : parseAddr text = true ∧ percent ∉ text)

namespace Host

/-- The host without brackets. -/
def inside : Host → Str
  | .name text _ | .literal text _ => text

/-- The host is an IPv6 address. -/
def isLiteral : Host → Bool
  | .name _ _ => false
  | .literal _ _ => true

/-- The host as it is written. -/
def text : Host → Str
  | .name text _ => text
  | .literal text _ => leftBracket :: (text ++ [rightBracket])

end Host

/-- A host, with a port or without. -/
structure Authority where
  host : Host
  port : Option Str
  port_digits : ∀ port' ∈ port, port' ≠ [] ∧ ∀ c ∈ port', isDigit c

namespace Authority

/-- The host and the port as they are written. -/
def text (a : Authority) : Str :=
  a.host.text ++ announced colon a.port

end Authority

theorem isHostByte_of_isLetter (h : isLetter c = true) : isHostByte c = true := by
  rw [isHostByte, h, Bool.true_or, Bool.true_or, Bool.true_or]

theorem isHostByte_of_isDigit (h : isDigit c = true) : isHostByte c = true := by
  rw [isHostByte, h, Bool.or_true, Bool.true_or, Bool.true_or]

theorem byte_of_isNameByte (c : UInt8) (h : isNameByte c = true) :
    isHostByte c = true ∧ c ∉ [colon, leftBracket, rightBracket] := by
  refine ⟨?_, notMem_of_kind (by decide) h⟩
  rw [isNameByte, Bool.or_eq_true, Bool.or_eq_true] at h
  obtain (h | h) | h := h
  · exact isHostByte_of_isLetter h
  · exact isHostByte_of_isDigit h
  · exact kind_of_contains (by decide) h

theorem isAddressByte_of_isHexDigit (h : isHexDigit c = true) : isAddressByte c = true := by
  rw [isAddressByte, h, Bool.true_or, Bool.true_or]

/-- What an IPv4 address is made of. -/
theorem isAddressByte_of_parseIPv4Fields {pos digLen val : ℕ}
    (h : parseIPv4Fields pos digLen val s = true) : ∀ c ∈ s, isAddressByte c = true := by
  induction s generalizing pos digLen val with
  | nil => exact fun c hc ↦ absurd hc List.not_mem_nil
  | cons d s ih =>
    rw [parseIPv4Fields] at h
    refine List.forall_mem_cons.2 ?_
    by_cases hdigit : isDigit d = true
    · rw [if_pos hdigit] at h
      dsimp only at h
      split_ifs at h
      exact ⟨isAddressByte_of_isHexDigit (by rw [isHexDigit, unhex, if_pos hdigit]; rfl), ih h⟩
    · rw [if_neg hdigit] at h
      split_ifs at h with hdot
      exact ⟨by rw [hdot]; decide, ih h⟩

/-- What an IPv6 address is made of. -/
theorem isAddressByte_of_parseIPv6Fields {left : ℕ} {ellipsis : Bool}
    (h : parseIPv6Fields left ellipsis s = true) : ∀ c ∈ s, isAddressByte c = true := by
  induction left generalizing ellipsis s with
  | zero => cases h
  | succ left ih =>
    have hcolon : isAddressByte colon = true := by decide
    have hdigits : ∀ c ∈ s.takeWhile isHexDigit, isAddressByte c = true := fun c hc ↦
      isAddressByte_of_isHexDigit (List.mem_takeWhile_imp hc)
    have happend := List.takeWhile_append_dropWhile (p := isHexDigit) (l := s)
    rw [parseIPv6Fields] at h
    by_cases hcount : s.takeWhile isHexDigit = [] ∨ 4 < (s.takeWhile isHexDigit).length
    · rw [if_pos hcount] at h
      cases h
    rw [if_neg hcount] at h
    cases hrest : s.dropWhile isHexDigit with
    | nil =>
      rw [hrest, List.append_nil] at happend
      exact happend ▸ hdigits
    | cons c rest =>
      rw [hrest] at h
      dsimp only at h
      by_cases hdot : c = dot
      · rw [if_pos hdot] at h
        split_ifs at h
        exact isAddressByte_of_parseIPv4Fields ((Bool.and_eq_true _ _).mp h).1
      by_cases hc : c = colon
      · rw [if_neg hdot, if_neg (not_not.mpr hc)] at h
        rw [← happend, hrest]
        refine List.forall_mem_append.2 ⟨hdigits, List.forall_mem_cons.2 ⟨hc ▸ hcolon, ?_⟩⟩
        cases rest with
        | nil => cases h
        | cons d tail =>
          dsimp only at h
          split_ifs at h with hd hellipsis htail
          · exact ih h
          · rw [not_not.mp hd, htail]
            exact List.forall_mem_singleton.2 hcolon
          · rw [not_not.mp hd]
            exact List.forall_mem_cons.2 ⟨hcolon, ih h⟩
      · rw [if_neg hdot, if_pos hc] at h
        cases h

theorem isAddressByte_of_parseIPv6 (h : parseIPv6 s = true) : ∀ c ∈ s, isAddressByte c = true := by
  rw [parseIPv6] at h
  split_ifs at h with hellipsis
  · obtain ⟨tail, rfl⟩ := hellipsis
    have hcolon : isAddressByte colon = true := by decide
    refine List.forall_mem_cons.2 ⟨hcolon, List.forall_mem_cons.2 ⟨hcolon, ?_⟩⟩
    obtain hlength | hfields := (Bool.or_eq_true _ _).mp h
    · have hnil : tail = [] := List.eq_nil_of_length_eq_zero (by
        simpa using of_decide_eq_true hlength)
      rw [hnil]
      exact fun c hc ↦ absurd hc List.not_mem_nil
    · exact isAddressByte_of_parseIPv6Fields hfields
  · exact isAddressByte_of_parseIPv6Fields h

/-- **An IPv6 address** without a zone has a colon, and is made of digits, colons and dots. -/
theorem address_of_parseAddr (h : parseAddr s = true ∧ percent ∉ s) :
    colon ∈ s ∧ ∀ c ∈ s, isAddressByte c = true := by
  obtain ⟨haddr, hpercent⟩ := h
  rw [parseAddr] at haddr
  cases hfind : s.find? fun c ↦ c == dot || c == colon || c == percent with
  | none =>
    rw [hfind] at haddr
    cases haddr
  | some c =>
    rw [hfind, cut_of_notMem hpercent] at haddr
    obtain ⟨hc, hparse⟩ := (Bool.and_eq_true _ _).mp haddr
    rw [beq_iff_eq] at hc
    exact ⟨hc ▸ List.mem_of_find?_eq_some hfind, isAddressByte_of_parseIPv6 hparse⟩

/-- The address `::1` is one, and `1:2` is none. -/
example : parseAddr [colon, colon, 0x31] = true ∧ parseAddr [0x31, colon, 0x32] = false := by
  decide +kernel

theorem isHostByte_of_isHexDigit (h : isHexDigit c = true) : isHostByte c = true := by
  have hletter : ∀ {lo hi}, 0x61 ≤ lo ∧ hi ≤ 0x7A ∨ 0x41 ≤ lo ∧ hi ≤ 0x5A → lo ≤ c ∧ c ≤ hi →
      isLetter c = true := by
    intro lo hi hbounds hc
    simp only [isLetter, Bool.or_eq_true, Bool.and_eq_true, decide_eq_true_eq]
    exact hbounds.imp (fun h ↦ ⟨UInt8.le_trans h.1 hc.1, UInt8.le_trans hc.2 h.2⟩)
      fun h ↦ ⟨UInt8.le_trans h.1 hc.1, UInt8.le_trans hc.2 h.2⟩
  rw [isHexDigit, unhex] at h
  split_ifs at h with hdigit hlower hupper
  · exact isHostByte_of_isDigit hdigit
  · exact isHostByte_of_isLetter (hletter (.inl (by decide)) hlower)
  · exact isHostByte_of_isLetter (hletter (.inr (by decide)) hupper)
  · cases h

theorem byte_of_isAddressByte (c : UInt8) (h : isAddressByte c = true) :
    isHostByte c = true ∧ c ∉ [leftBracket, rightBracket] := by
  refine ⟨?_, notMem_of_kind (by decide) h⟩
  simp only [isAddressByte, Bool.or_eq_true, beq_iff_eq] at h
  obtain (h | rfl) | rfl := h
  · exact isHostByte_of_isHexDigit h
  · decide
  · decide

theorem byte_of_isDigit (c : UInt8) (h : isDigit c = true) :
    isHostByte c = true ∧ c ∉ [colon, leftBracket, rightBracket] :=
  ⟨isHostByte_of_isDigit h, notMem_of_kind (by decide) h⟩

theorem byte_of_isHostByte (c : UInt8) (h : isHostByte c = true) :
    isVisible c = true ∧ c ∉ [slash, question, hash, atSign, percent] := by
  refine ⟨?_, notMem_of_kind (by decide) h⟩
  rw [isHostByte, Bool.or_eq_true, Bool.or_eq_true, Bool.or_eq_true] at h
  obtain ((h | h) | h) | h := h
  · exact isVisible_of_isLetter h
  · exact isVisible_of_isDigit h
  · exact kind_of_contains (by decide) h
  · exact kind_of_contains (by decide) h

namespace Host

variable (h : Host)

theorem inside_bytes : ∀ c ∈ h.inside, isHostByte c := by
  cases h with
  | name text valid => exact fun c hc ↦ (byte_of_isNameByte c (valid.2 c hc)).1
  | literal text valid =>
    exact fun c hc ↦ (byte_of_isAddressByte c ((address_of_parseAddr valid).2 c hc)).1

theorem text_bytes : ∀ c ∈ h.text, isHostByte c := by
  have hinside := h.inside_bytes
  cases h with
  | name text valid => exact hinside
  | literal text valid =>
    intro c hc
    rw [Host.text, List.mem_cons, List.mem_append, List.mem_singleton] at hc
    rcases hc with rfl | hc | rfl
    · decide
    · exact hinside c hc
    · decide

end Host

namespace Authority

variable (a : Authority)

/-- The port is written in digits. -/
theorem port_bytes {port : Str} (hport : port ∈ a.port) :
    ∀ c ∈ port, isHostByte c ∧ c ∉ [colon, leftBracket, rightBracket] :=
  fun c hc ↦ byte_of_isDigit c ((a.port_digits port hport).2 c hc)

theorem port_notMem {port : Str} (hport : port ∈ a.port) :
    ∀ c ∈ [colon, leftBracket, rightBracket], c ∉ port :=
  fun c hc h ↦ (a.port_bytes hport c h).2 hc

theorem validOptionalPort_announced : validOptionalPort (announced colon a.port) = true := by
  cases hport : a.port with
  | none => rfl
  | some port =>
    have hdigits : port.all isDigit = true :=
      List.all_eq_true.mpr (a.port_digits port hport).2
    rw [announced, Option.elim, validOptionalPort, hdigits]
    rfl

theorem text_bytes : ∀ c ∈ a.text, isHostByte c := by
  intro c hc
  obtain hc | hc := List.mem_append.mp hc
  · exact a.host.text_bytes c hc
  · cases hport : a.port with
    | none =>
      rw [hport] at hc
      cases hc
    | some port =>
      rw [hport] at hc
      obtain rfl | hc := List.mem_cons.mp hc
      · decide
      · exact (a.port_bytes hport c hc).1

end Authority

/-! ### What `net` and `net/url` make of them -/

theorem parseHost_name {name port : Str} (hname : ∀ c ∈ name, isNameByte c)
    (hport : validOptionalPort port = true) (hbracket : leftBracket ∉ port)
    (hunescape : unescape .host (name ++ port) = some (name ++ port)) :
    parseHost (name ++ port) = some (name ++ port) := by
  have hmem : ∀ c ∈ [colon, leftBracket, rightBracket], c ∉ name := fun c hc h ↦
    (byte_of_isNameByte _ (hname _ h)).2 hc
  have hleft : leftBracket ∉ name ++ port := fun h ↦
    (List.mem_append.mp h).elim (hmem leftBracket (by decide)) hbracket
  rw [parseHost, cutLast_of_notMem hleft]
  dsimp only
  cases port with
  | nil =>
    rw [List.append_nil] at hunescape ⊢
    rw [cutLast_of_notMem (hmem colon (by decide))]
    exact hunescape
  | cons d port =>
    obtain ⟨hd, hdigits⟩ := (Bool.and_eq_true _ _).mp hport
    obtain rfl : d = colon := of_decide_eq_true hd
    have hcolon : colon ∉ port := fun h ↦
      (byte_of_isDigit _ (List.all_eq_true.mp hdigits _ h)).2 (by decide)
    rw [cutLast_append_cons name hcolon]
    dsimp only
    rw [hport]
    exact hunescape

theorem parseHost_literal {address port : Str}
    (haddress : parseAddr address = true ∧ percent ∉ address)
    (hport : validOptionalPort port = true)
    (hbracket : ∀ c ∈ [leftBracket, rightBracket], c ∉ port)
    (hunescape : unescape .host address = some address)
    (hunescapePort : unescape .host port = some port) :
    parseHost (leftBracket :: (address ++ rightBracket :: port)) =
      some (leftBracket :: (address ++ rightBracket :: port)) := by
  have hmem : ∀ c ∈ [leftBracket, rightBracket], c ∉ address := fun c hc h ↦
    (byte_of_isAddressByte _ ((address_of_parseAddr haddress).2 _ h)).2 hc
  have hleft : cutLast leftBracket (leftBracket :: (address ++ rightBracket :: port)) =
      some ([], address ++ rightBracket :: port) :=
    cutLast_append_cons [] (notMem_append_cons (hmem _ (by decide)) (by decide)
      (hbracket _ (by decide)))
  rw [parseHost, hleft]
  dsimp only [List.tail_cons]
  rw [if_neg (fun h ↦ h rfl), cutLast_append_cons _ (hbracket _ (by decide))]
  dsimp only
  rw [hport, hunescapePort, unescapeHostname, cutZone_of_notMem haddress.2, hunescape]
  dsimp only [Option.bind_eq_bind, Option.bind_some]
  rw [haddress.1]
  rfl

theorem splitHostPort_name {name port : Str} (hname : ∀ c ∈ name, isNameByte c)
    (hport : ∀ c ∈ [colon, leftBracket, rightBracket], c ∉ port) :
    splitHostPort (name ++ colon :: port) = some (name, port) := by
  have hmem : ∀ c ∈ [colon, leftBracket, rightBracket], c ∉ name := fun c hc h ↦
    (byte_of_isNameByte _ (hname _ h)).2 hc
  have hleft : leftBracket ∉ name ++ colon :: port :=
    notMem_append_cons (hmem _ (by decide)) (by decide) (hport _ (by decide))
  have hright : rightBracket ∉ name ++ colon :: port :=
    notMem_append_cons (hmem _ (by decide)) (by decide) (hport _ (by decide))
  have hhead : (name ++ colon :: port).head? ≠ some leftBracket := fun h ↦
    hleft (List.mem_of_mem_head? h)
  rw [splitHostPort, cutLast_append_cons name (hport colon (by decide))]
  dsimp only
  rw [if_neg hhead, if_neg (hmem colon (by decide)), if_neg (not_or.mpr ⟨hleft, hright⟩)]

theorem splitHostPort_literal {address port : Str} (haddress : ∀ c ∈ address, isAddressByte c)
    (hport : ∀ c ∈ [colon, leftBracket, rightBracket], c ∉ port) :
    splitHostPort (leftBracket :: (address ++ [rightBracket]) ++ colon :: port) =
      some (address, port) := by
  have hmem : ∀ c ∈ [leftBracket, rightBracket], c ∉ address := fun c hc h ↦
    (byte_of_isAddressByte _ (haddress _ h)).2 hc
  have htext : leftBracket :: (address ++ [rightBracket]) ++ colon :: port =
      leftBracket :: address ++ rightBracket :: colon :: port := by
    simp
  have hinside : rightBracket ∉ leftBracket :: address :=
    List.not_mem_cons_of_ne_of_not_mem (by decide) (hmem rightBracket (by decide))
  have htail : leftBracket ∉ (leftBracket :: (address ++ [rightBracket]) ++ colon :: port).tail :=
    notMem_append_cons (notMem_append_cons (hmem _ (by decide)) (by decide) List.not_mem_nil)
      (by decide) (hport _ (by decide))
  have hcut : cut rightBracket (leftBracket :: (address ++ [rightBracket]) ++ colon :: port) =
      (leftBracket :: address, some (colon :: port)) := by
    rw [htext]
    exact cut_append_cons hinside _
  rw [splitHostPort, cutLast_append_cons _ (hport colon (by decide))]
  dsimp only
  rw [if_pos (by rfl), hcut]
  dsimp only
  rw [if_neg (fun h ↦ h rfl), if_neg (not_or.mpr ⟨htail, hport _ (by decide)⟩)]
  rfl

/-- In brackets alone, the last colon is one of the address. -/
theorem splitHostPort_brackets {address : Str} (hcolon : colon ∈ address)
    (haddress : ∀ c ∈ address, isAddressByte c) :
    splitHostPort (leftBracket :: (address ++ [rightBracket])) = none := by
  have hinside : rightBracket ∉ leftBracket :: address :=
    List.not_mem_cons_of_ne_of_not_mem (by decide) fun h ↦
      (byte_of_isAddressByte _ (haddress _ h)).2 (by decide)
  obtain ⟨hnone, -⟩ | ⟨before, behind, rfl, hbehind, -⟩ := cutLast_cases colon address
  · exact absurd hcolon hnone
  · have hlast : colon ∉ behind ++ [rightBracket] :=
      notMem_append_cons hbehind (by decide) List.not_mem_nil
    have htext : leftBracket :: (before ++ colon :: behind ++ [rightBracket]) =
        leftBracket :: before ++ colon :: (behind ++ [rightBracket]) := by
      simp
    have hcut : cut rightBracket (leftBracket :: (before ++ colon :: behind ++ [rightBracket])) =
        (leftBracket :: (before ++ colon :: behind), some []) :=
      cut_append_cons hinside []
    -- the bracket does not stand right before that colon
    have hfront : leftBracket :: (before ++ colon :: behind) ++ [rightBracket] ≠
        leftBracket :: before := by
      intro h
      have hlength := congrArg List.length h
      simp only [List.length_append, List.length_cons, List.length_nil] at hlength
      omega
    rw [splitHostPort, hcut, htext, cutLast_append_cons _ hlast]
    dsimp only
    rw [if_pos (by rfl), if_pos hfront]

namespace Authority

variable (a : Authority)

theorem announced_notMem : ∀ c ∈ [leftBracket, rightBracket], c ∉ announced colon a.port := by
  intro c hc
  cases hport : a.port with
  | none => exact List.not_mem_nil
  | some port =>
    refine List.not_mem_cons_of_ne_of_not_mem ?_
      (a.port_notMem hport c (List.mem_cons_of_mem colon hc))
    rintro rfl
    exact absurd hc (by decide)

/-- The host and the port stand for themselves. -/
theorem unescape_text (htext : t <:+: a.text) : unescape .host t = some t :=
  unescape_self fun c hc ↦
    have hbyte := a.text_bytes c (htext.subset hc)
    ⟨fun hpercent ↦ (byte_of_isHostByte c hbyte).2 (by rw [hpercent]; decide), .inr hbyte⟩

theorem parseHost_text : parseHost a.text = some a.text := by
  have hoption := a.validOptionalPort_announced
  have hbracket := a.announced_notMem
  have hunescape (t : Str) := a.unescape_text (t := t)
  rw [text] at hunescape ⊢
  cases hhost : a.host with
  | name name valid =>
    rw [hhost] at hunescape
    exact parseHost_name valid.2 hoption (hbracket _ (by decide))
      (hunescape _ (List.infix_refl _))
  | literal address valid =>
    have htext : leftBracket :: (address ++ [rightBracket]) ++ announced colon a.port =
        leftBracket :: (address ++ rightBracket :: announced colon a.port) := by
      simp
    rw [hhost, Host.text, htext] at hunescape
    rw [Host.text, htext]
    refine parseHost_literal valid hoption hbracket (hunescape _ ?_) (hunescape _ ?_)
    · exact ⟨[leftBracket], rightBracket :: announced colon a.port, rfl⟩
    · exact ⟨leftBracket :: (address ++ [rightBracket]), [], by simp⟩

/-- An authority of this form has no user information. -/
theorem parseAuthority_text : parseAuthority a.text = some (none, a.text) := by
  have hat : atSign ∉ a.text := fun h ↦ (byte_of_isHostByte _ (a.text_bytes _ h)).2 (by decide)
  rw [parseAuthority, cutLast_of_notMem hat, a.parseHost_text]
  rfl

/-- A host is split from its port, and loses its brackets, only if there is a port. -/
theorem splitHostPort_text :
    splitHostPort a.text = a.port.map fun port ↦ (a.host.inside, port) := by
  rw [text]
  cases hhost : a.host with
  | name name valid =>
    cases hport : a.port with
    | none =>
      have hcolon : colon ∉ name := fun h ↦ (byte_of_isNameByte _ (valid.2 _ h)).2 (by decide)
      rw [Host.text, announced, Option.elim, List.append_nil, splitHostPort,
        cutLast_of_notMem hcolon]
      rfl
    | some port => exact splitHostPort_name valid.2 (a.port_notMem hport)
  | literal address valid =>
    cases hport : a.port with
    | none =>
      rw [Host.text, announced, Option.elim, List.append_nil]
      have haddress := address_of_parseAddr valid
      exact splitHostPort_brackets haddress.1 haddress.2
    | some port =>
      exact splitHostPort_literal (address_of_parseAddr valid).2 (a.port_notMem hport)

end Authority

end Url
