import AllRelay.Library.Url

/-!
# The check of a request's origin

Before it lets a browser control a device, the web server compares the `Origin` of a request with
the request itself. The comparison is of strings: `net.SplitHostPort` takes the brackets off an IPv6
literal only if a port stands behind it, so that the same literal with the default port written and
with the port left out differ (`check_same_origin_iff`). It lets no request of another origin pass.
-/

namespace AllRelay.SameOrigin

open Url

/-- What the check reads of `http.Request`. -/
structure Request where
  /-- The header `Origin`, empty if there is none. -/
  origin : Str
  tls : Bool
  /-- `r.Host`. -/
  host : Str
  /-- `r.URL.Host`, if there is a URL. -/
  urlHost : Option Str

/-- The bytes `http`. -/
def http : Str := [0x68, 0x74, 0x74, 0x70]

/-- The bytes `https`. -/
def https : Str := [0x68, 0x74, 0x74, 0x70, 0x73]

/-- The port of a scheme when none is given. -/
def defaultPort (scheme : Str) : Str :=
  if scheme = https then [0x34, 0x34, 0x33] else [0x38, 0x30]

namespace Request

/-- `reqScheme`. -/
def reqScheme (r : Request) : Str := if r.tls then https else http

/-- `reqHost`. -/
def reqHost (r : Request) : Str := if r.host = [] then r.urlHost.getD [] else r.host

end Request

section Check

variable (unicodeLower : Str → Str)

/-- `strings.ToLower`; `unicodeLower` is what it does to a string that is not ASCII. -/
def toLower (s : Str) : Str := if s.all (· < 0x80) then s.map lower else unicodeLower s

/-- `normalizeHostPort`. -/
def normalizeHostPort (defaultPort hp : Str) : Str :=
  let (host, port) := (splitHostPort hp).getD (hp, defaultPort)
  toLower unicodeLower host ++ colon :: port

/-- `checkSameOrigin`. -/
def checkSameOrigin (r : Request) : Bool :=
  let origin := trimSpace r.origin
  -- a client that is no browser sends no origin
  if origin = [] then true
  else
    match parse origin with
    | none => false
    | some originURL =>
      let scheme := toLower unicodeLower originURL.scheme
      if originURL.host = [] then false
      else if scheme ≠ http ∧ scheme ≠ https then false
      else if originURL.user ≠ none ∨ (originURL.path ≠ [] ∧ originURL.path ≠ [slash]) ∨
          originURL.rawQuery ≠ [] ∨ originURL.fragment ≠ [] then false
      else if scheme ≠ r.reqScheme then false
      else if r.reqHost = [] then false
      else
        normalizeHostPort unicodeLower (defaultPort scheme) originURL.host =
          normalizeHostPort unicodeLower (defaultPort scheme) r.reqHost

end Check

/-! ### Origins -/

/-- An origin with a host in one of the forms of a URL. At its end may stand a slash, and a `?` or a
`#` with nothing behind it. -/
structure Origin where
  scheme : Str
  scheme_valid : scheme ≠ [] ∧ (∀ c ∈ scheme.head?, isLetter c) ∧ ∀ c ∈ scheme, isSchemeByte c
  authority : Authority
  slash : Bool
  query : Bool
  fragment : Bool

namespace Origin

/-- The path. -/
def path (o : Origin) : Str := if o.slash then [Url.slash] else []

/-- The origin as it is written. -/
def text (o : Origin) : Str :=
  o.scheme ++ colon :: Url.slash :: Url.slash :: (o.authority.text ++ o.path) ++
    announced question (if o.query then some [] else none) ++
    announced hash (if o.fragment then some [] else none)

end Origin

/-- The number that a port is. -/
def portNumber (port : Str) : ℕ := port.foldl (fun n c ↦ 10 * n + (c.toNat - 0x30)) 0

/-- The port, the one of the scheme if it is left out. -/
def portText (scheme : Str) (a : Authority) : Str := a.port.getD (defaultPort scheme)

/-- The request is for the origin: they have the scheme, the host and the port in common. -/
def IsSameOrigin (r : Request) (own : Authority) (o : Origin) : Prop :=
  o.scheme.map lower = r.reqScheme ∧
    o.authority.host.text.map lower = own.host.text.map lower ∧
    portNumber (portText r.reqScheme o.authority) = portNumber (portText r.reqScheme own)

/-- The host is an IPv6 literal, and only one of the two writes its port. -/
def IsMixed (own : Authority) (o : Origin) : Prop :=
  own.host.isLiteral ∧ own.port.isSome ≠ o.authority.port.isSome

/-- The port is written in two ways, with zeros in front. -/
def IsPadded (r : Request) (own : Authority) (o : Origin) : Prop :=
  portText r.reqScheme o.authority ≠ portText r.reqScheme own

/-- The `Origin` has another scheme, user information, a path, a query or a fragment. -/
def IsForeign (r : Request) (origin : Components) : Prop :=
  origin.scheme.map (List.map lower) ≠ some r.reqScheme ∨
    (∃ authority ∈ origin.authority, atSign ∈ authority) ∨
    (origin.path ≠ [] ∧ origin.path ≠ [slash]) ∨
    (∃ query ∈ origin.query, query ≠ []) ∨ ∃ fragment ∈ origin.fragment, fragment ≠ []

/-! ### What the strings keep -/

theorem ascii_of_isVisible (c : UInt8) (h : isVisible c = true) : decide (c < 0x80) = true := by
  rw [isVisible, Bool.and_eq_true, decide_eq_true_eq, decide_eq_true_eq] at h
  exact decide_eq_true (UInt8.lt_of_le_of_lt h.2 (by decide))

theorem ascii_of_isHostByte (c : UInt8) (h : isHostByte c = true) : decide (c < 0x80) = true :=
  ascii_of_isVisible c (byte_of_isHostByte c h).1

theorem lower_eq_iff :
    ∀ d, (lower d = colon ↔ d = colon) ∧ (lower d = leftBracket ↔ d = leftBracket) :=
  forall_byte (by decide +kernel)

theorem colon_mem_map_lower {s : Str} : colon ∈ s.map lower ↔ colon ∈ s := by
  simp only [List.mem_map, (lower_eq_iff _).1, exists_eq_right]

theorem leftBracket_mem_map_lower {s : Str} : leftBracket ∈ s.map lower ↔ leftBracket ∈ s := by
  simp only [List.mem_map, (lower_eq_iff _).2, exists_eq_right]

variable (unicodeLower : Str → Str)

theorem toLower_eq_map {s : Str} (h : ∀ c ∈ s, isHostByte c) :
    toLower unicodeLower s = s.map lower :=
  if_pos (List.all_eq_true.mpr fun c hc ↦ ascii_of_isHostByte c (h c hc))

/-- The host as `normalizeHostPort` leaves it: without brackets if there is a port. -/
def shown (a : Authority) : Str := a.port.elim a.host.text fun _ ↦ a.host.inside

theorem normalizeHostPort_text (a : Authority) (defaultPort : Str) :
    normalizeHostPort unicodeLower defaultPort a.text =
      (shown a).map lower ++ colon :: a.port.getD defaultPort := by
  rw [normalizeHostPort, a.splitHostPort_text, shown]
  cases hport : a.port with
  | none =>
    have htext : a.text = a.host.text := by
      rw [Authority.text, hport]
      exact List.append_nil _
    rw [htext]
    exact congrArg (· ++ _) (toLower_eq_map unicodeLower a.host.text_bytes)
  | some port => exact congrArg (· ++ _) (toLower_eq_map unicodeLower a.host.inside_bytes)

/-- A host with a colon in it is a literal. -/
theorem colon_mem_inside (h : Host) : colon ∈ h.inside ↔ h.isLiteral := by
  cases h with
  | name text valid =>
    refine iff_of_false (fun hmem ↦ ?_) Bool.false_ne_true
    exact (byte_of_isNameByte _ (valid.2 _ hmem)).2 (by decide)
  | literal text valid => exact iff_of_true (address_of_parseAddr valid).1 rfl

theorem leftBracket_notMem_inside (h : Host) : leftBracket ∉ h.inside := by
  intro hmem
  cases h with
  | name text valid => exact (byte_of_isNameByte _ (valid.2 _ hmem)).2 (by decide)
  | literal text valid =>
    exact (byte_of_isAddressByte _ ((address_of_parseAddr valid).2 _ hmem)).2 (by decide)

/-- A string in brackets, or as it is. -/
def bracketed (brackets : Bool) (s : Str) : Str :=
  if brackets then leftBracket :: (s ++ [rightBracket]) else s

theorem text_eq_bracketed (h : Host) : h.text = bracketed h.isLiteral h.inside := by
  cases h <;> rfl

theorem shown_eq_bracketed (a : Authority) :
    shown a = bracketed (a.host.isLiteral && a.port.isNone) a.host.inside := by
  rw [shown, text_eq_bracketed]
  cases a.port with
  | none => rw [Option.isNone_none, Bool.and_true, Option.elim]
  | some port =>
    rw [Option.isNone_some, Bool.and_false]
    rfl

theorem bracketed_map_lower_inj {brackets brackets' : Bool} {s t : Str} (hs : leftBracket ∉ s)
    (ht : leftBracket ∉ t) :
    (bracketed brackets s).map lower = (bracketed brackets' t).map lower ↔
      brackets = brackets' ∧ s.map lower = t.map lower := by
  have hs' := mt leftBracket_mem_map_lower.mp hs
  have ht' := mt leftBracket_mem_map_lower.mp ht
  cases brackets with
  | false =>
    cases brackets' with
    | false => simp [bracketed]
    | true =>
      refine iff_of_false (fun h ↦ hs' ?_) (by simp)
      exact h ▸ List.mem_cons_self
  | true =>
    cases brackets' with
    | false =>
      refine iff_of_false (fun h ↦ ht' ?_) (by simp)
      exact h ▸ List.mem_cons_self
    | true => simp [bracketed]

/-- Hosts of another kind are not the same without their brackets either. -/
theorem isLiteral_eq_of_inside {h k : Host} (hinside : h.inside.map lower = k.inside.map lower) :
    h.isLiteral = k.isLiteral := by
  rw [Bool.eq_iff_iff, ← colon_mem_inside, ← colon_mem_inside, ← colon_mem_map_lower, hinside,
    colon_mem_map_lower]

/-- The strings show the same host if the hosts are the same, and both keep their brackets or both
lose them. -/
theorem shown_eq_iff (a b : Authority) :
    (shown a).map lower = (shown b).map lower ↔
      a.host.text.map lower = b.host.text.map lower ∧
        ¬(b.host.isLiteral ∧ b.port.isSome ≠ a.port.isSome) := by
  have hbracket := leftBracket_notMem_inside
  rw [shown_eq_bracketed, shown_eq_bracketed, text_eq_bracketed, text_eq_bracketed,
    bracketed_map_lower_inj (hbracket _) (hbracket _),
    bracketed_map_lower_inj (hbracket _) (hbracket _)]
  by_cases hinside : a.host.inside.map lower = b.host.inside.map lower
  · rw [isLiteral_eq_of_inside hinside]
    cases b.host.isLiteral <;> cases a.port <;> cases b.port <;> simp [hinside]
  · exact iff_of_false (fun h ↦ hinside h.2) fun h ↦ hinside h.1.2

theorem portText_notMem (scheme : Str) (a : Authority) : colon ∉ portText scheme a := by
  rw [portText]
  cases hport : a.port with
  | none =>
    rw [Option.getD_none, defaultPort]
    split_ifs <;> decide
  | some port => exact a.port_notMem hport colon (by decide)

/-- The two strings that the check compares are the same if the hosts are, the ports are written
alike, and not just one of two literals has lost its brackets. -/
theorem normalizeHostPort_eq_iff (scheme : Str) (a b : Authority) :
    normalizeHostPort unicodeLower (defaultPort scheme) a.text =
        normalizeHostPort unicodeLower (defaultPort scheme) b.text ↔
      (a.host.text.map lower = b.host.text.map lower ∧
        ¬(b.host.isLiteral ∧ b.port.isSome ≠ a.port.isSome)) ∧
      portText scheme a = portText scheme b := by
  have ha := cutLast_append_cons ((shown a).map lower) (portText_notMem scheme a)
  have hb := cutLast_append_cons ((shown b).map lower) (portText_notMem scheme b)
  rw [normalizeHostPort_text, normalizeHostPort_text, ← shown_eq_iff]
  constructor
  · intro h
    rw [portText, h] at ha
    exact Prod.mk.inj (Option.some.inj (ha.symm.trans hb))
  · rintro ⟨hshown, hport⟩
    rw [hshown]
    exact congrArg (_ ++ colon :: ·) hport

/-! ### Origins of the form of a URL with a host -/

section Origin

variable (o : Origin)

theorem hierarchical : Hierarchical o.scheme o.authority.text o.path where
  scheme_ne_nil := o.scheme_valid.1
  letter := o.scheme_valid.2.1
  scheme_bytes := o.scheme_valid.2.2
  authority_bytes c hc := by
    obtain ⟨hvisible, hnotMem⟩ := byte_of_isHostByte c (o.authority.text_bytes c hc)
    refine ⟨hvisible, fun hmem ↦ hnotMem ?_⟩
    simp only [List.mem_cons, List.not_mem_nil, or_false] at hmem ⊢
    tauto
  slash_first c hc := by
    rw [Origin.path] at hc
    split_ifs at hc
    · exact (Option.some.inj hc).symm
    · cases hc
  path_bytes c hc := by
    rw [Origin.path] at hc
    split_ifs at hc
    · rw [List.mem_singleton.mp hc]
      decide
    · cases hc

theorem mark_bytes (mark : Bool) :
    ∀ t ∈ (if mark then some [] else none : Option Str), ∀ c ∈ t, isVisible c ∧ c ≠ hash := by
  intro t ht c hc
  split_ifs at ht
  · rw [← Option.some.inj ht] at hc
    cases hc
  · cases ht

theorem text_visible : ∀ c ∈ o.text, isVisible c := by
  intro c hc
  obtain hc | hc := List.mem_append.mp hc
  · exact ((hierarchical o).front_bytes (mark_bytes o.query) c hc).1
  · cases hmark : o.fragment with
    | false =>
      rw [hmark] at hc
      cases hc
    | true =>
      rw [hmark] at hc
      rw [List.mem_singleton.mp hc]
      decide

theorem parse_origin :
    parse o.text = some ⟨o.scheme.map lower, none, o.authority.text, o.path, [], []⟩ := by
  have hmark : ∀ mark : Bool, (if mark then some [] else none : Option Str).getD [] = [] := by
    decide
  have hpath : unescape .other o.path = some o.path := by
    rw [Origin.path]
    split_ifs <;> decide
  have hfragment : unescape .other ((if o.fragment then some [] else none : Option Str).getD []) =
      some [] := by
    rw [hmark]
    rfl
  have hparse := (hierarchical o).parse_text (mark_bytes o.query)
    o.authority.parseAuthority_text hpath hfragment
  rwa [hmark] at hparse

end Origin

/-! ### The check -/

theorem reqScheme_eq (r : Request) : r.reqScheme = http ∨ r.reqScheme = https := by
  rw [Request.reqScheme]
  split_ifs
  · exact .inr rfl
  · exact .inl rfl

/-- What the check of a URL amounts to. -/
theorem checkSameOrigin_eq_true_iff {r : Request} {url : URL} (hne : trimSpace r.origin ≠ [])
    (hparse : parse (trimSpace r.origin) = some url) :
    checkSameOrigin unicodeLower r = true ↔
      url.host ≠ [] ∧ toLower unicodeLower url.scheme = r.reqScheme ∧
        ¬(url.user ≠ none ∨ (url.path ≠ [] ∧ url.path ≠ [slash]) ∨ url.rawQuery ≠ [] ∨
          url.fragment ≠ []) ∧
        r.reqHost ≠ [] ∧
        normalizeHostPort unicodeLower (defaultPort r.reqScheme) url.host =
          normalizeHostPort unicodeLower (defaultPort r.reqScheme) r.reqHost := by
  rw [checkSameOrigin]
  dsimp only
  rw [if_neg hne, hparse]
  dsimp only
  split_ifs with hhost hknown hforeign hscheme hreqHost
  · exact iff_of_false id fun h ↦ h.1 hhost
  · refine iff_of_false id fun h ↦ ?_
    obtain hhttp | hhttps := reqScheme_eq r
    · exact hknown.1 (h.2.1.trans hhttp)
    · exact hknown.2 (h.2.1.trans hhttps)
  · exact iff_of_false id fun h ↦ h.2.2.1 hforeign
  · exact iff_of_false id fun h ↦ hscheme h.2.1
  · exact iff_of_false id fun h ↦ h.2.2.2.1 hreqHost
  · rw [decide_eq_true_iff, not_not.mp hscheme]
    exact ⟨fun h ↦ ⟨hhost, rfl, hforeign, hreqHost, h⟩, fun h ↦ h.2.2.2.2⟩

theorem lower_lower : ∀ c, lower (lower c) = lower c :=
  forall_byte (by decide +kernel)

theorem lower_ascii_of_isSchemeByte (c : UInt8) (h : isSchemeByte c = true) :
    decide (lower c < 0x80) = true := by
  rw [lower]
  split
  · rename_i hupper
    have hle : c.toNat ≤ 0x5A := UInt8.le_iff_toNat_le.1 hupper.2
    rw [decide_eq_true_eq, UInt8.lt_iff_toNat_lt, UInt8.toNat_add]
    show (c.toNat + 0x20) % 256 < 0x80
    omega
  · exact ascii_of_isVisible c (isVisible_of_isSchemeByte c h)

theorem toLower_scheme {scheme : Str} (h : ∀ c ∈ scheme, isSchemeByte c) :
    toLower unicodeLower (scheme.map lower) = scheme.map lower := by
  have hascii : (scheme.map lower).all (· < 0x80) = true := by
    rw [List.all_map]
    exact List.all_eq_true.mpr fun c hc ↦ lower_ascii_of_isSchemeByte c (h c hc)
  rw [toLower, if_pos hascii, List.map_map]
  exact List.map_congr_left fun c _ ↦ lower_lower c

theorem text_ne_nil (a : Authority) : a.text ≠ [] := by
  rw [Authority.text]
  cases hhost : a.host with
  | name text valid => exact List.append_ne_nil_of_left_ne_nil valid.1 _
  | literal text valid => exact List.cons_ne_nil _ _

/-- The check of an origin that has the form of a URL with a host. -/
theorem checkSameOrigin_text {r : Request} {own : Authority} {o : Origin}
    (hown : r.reqHost = own.text) (ho : r.origin = o.text) :
    checkSameOrigin unicodeLower r = true ↔
      o.scheme.map lower = r.reqScheme ∧
        (o.authority.host.text.map lower = own.host.text.map lower ∧ ¬IsMixed own o) ∧
        portText r.reqScheme o.authority = portText r.reqScheme own := by
  have htrim : trimSpace r.origin = o.text := by
    rw [ho, trimSpace_of_visible (text_visible o)]
  have hne : trimSpace r.origin ≠ [] := by
    rw [htrim, Origin.text]
    simp
  have hpath : ¬(o.path ≠ [] ∧ o.path ≠ [slash]) := by
    rw [Origin.path]
    split_ifs <;> decide
  rw [checkSameOrigin_eq_true_iff unicodeLower hne (htrim ▸ parse_origin o), hown]
  dsimp only
  rw [toLower_scheme unicodeLower o.scheme_valid.2.2, normalizeHostPort_eq_iff]
  constructor
  · rintro ⟨-, hscheme, -, -, h⟩
    exact ⟨hscheme, h⟩
  · rintro ⟨hscheme, h⟩
    refine ⟨text_ne_nil _, hscheme, ?_, text_ne_nil own, h⟩
    simpa using hpath

/-- A request that the check lets pass with an origin has no other scheme, no user information and
nothing behind the host. -/
theorem not_isForeign_of_check {r : Request} (hne : trimSpace r.origin ≠ [])
    (hcheck : checkSameOrigin unicodeLower r = true) :
    ¬IsForeign r (components (trimSpace r.origin)) := by
  cases hparse : parse (trimSpace r.origin) with
  | none =>
    rw [checkSameOrigin] at hcheck
    dsimp only at hcheck
    rw [if_neg hne, hparse] at hcheck
    cases hcheck
  | some url =>
    obtain ⟨hhost, hscheme, hforeign, -⟩ :=
      (checkSameOrigin_eq_true_iff unicodeLower hne hparse).mp hcheck
    have hscheme_ne : url.scheme ≠ [] := by
      intro hnil
      rw [hnil] at hscheme
      obtain hhttp | hhttps := reqScheme_eq r
      · cases hscheme.trans hhttp
      · cases hscheme.trans hhttps
    obtain ⟨scheme, authority, hscheme', hbytes, hlower, hauthority, hparseAuthority, hslash, hpath,
      hquery, hfragment⟩ := parse_components hparse hscheme_ne hhost
    simp only [not_or, not_and_or, not_not] at hforeign
    obtain ⟨huser, hpath', hquery', hfragment'⟩ := hforeign
    rw [huser] at hparseAuthority
    rw [hquery'] at hquery
    rw [hfragment'] at hfragment
    rw [← hlower, toLower_scheme unicodeLower hbytes] at hscheme
    rintro (hother | ⟨authority', hmem, hat⟩ | hother | ⟨query, hmem, hother⟩ |
      ⟨fragment, hmem, hother⟩)
    · rw [hscheme'] at hother
      exact hother (congrArg some hscheme)
    · rw [hauthority] at hmem
      rw [← Option.some.inj hmem] at hat
      exact notMem_of_parseAuthority hparseAuthority hat
    · have hpath_eq := eq_of_unescape_path hslash hpath hpath'
      rw [← hpath_eq] at hpath'
      exact hpath'.elim hother.1 hother.2
    · rw [Option.mem_def.mp hmem] at hquery
      exact hother hquery
    · rw [Option.mem_def.mp hmem] at hfragment
      exact hother (eq_nil_of_unescape hfragment)

/-- The check of the origin is right as long as a request of the same origin has not written the
port of an IPv6 literal on one side only, nor the same port with zeros in front, and as long as a
mark with nothing behind it does not stand behind an origin that is otherwise the request's. A
foreign `Origin` is always refused. -/
theorem check_same_origin_iff :
    (∀ (r : Request) (own : Authority) (o : Origin), r.reqHost = own.text → r.origin = o.text →
      (¬(o.query ∨ o.fragment) →
        ((checkSameOrigin unicodeLower r = true ↔ IsSameOrigin r own o) ↔
          ¬(IsSameOrigin r own o ∧ (IsMixed own o ∨ IsPadded r own o)))) ∧
      (o.query ∨ o.fragment →
        (checkSameOrigin unicodeLower r = false ↔
          ¬(IsSameOrigin r own o ∧ ¬(IsMixed own o ∨ IsPadded r own o))))) ∧
    ∀ r : Request, trimSpace r.origin ≠ [] → IsForeign r (components (trimSpace r.origin)) →
      checkSameOrigin unicodeLower r = false := by
  refine ⟨fun r own o hown ho ↦ ?_, fun r hne hforeign ↦ ?_⟩
  · have hcheck : checkSameOrigin unicodeLower r = true ↔
        IsSameOrigin r own o ∧ ¬(IsMixed own o ∨ IsPadded r own o) := by
      rw [checkSameOrigin_text unicodeLower hown ho, IsSameOrigin, IsPadded]
      constructor
      · rintro ⟨hscheme, ⟨hhost, hmixed⟩, hport⟩
        exact ⟨⟨hscheme, hhost, congrArg portNumber hport⟩, not_or.mpr ⟨hmixed, not_not.mpr hport⟩⟩
      · rintro ⟨⟨hscheme, hhost, -⟩, hwritten⟩
        obtain ⟨hmixed, hport⟩ := not_or.mp hwritten
        exact ⟨hscheme, ⟨hhost, hmixed⟩, not_not.mp hport⟩
    refine ⟨fun _ ↦ ?_, fun _ ↦ ?_⟩
    · rw [hcheck]
      tauto
    · rw [← hcheck, Bool.not_eq_true]
  · by_contra hcheck
    exact not_isForeign_of_check unicodeLower hne ((Bool.not_eq_false _).mp hcheck) hforeign

/-- The name `h`. -/
def name : Host := .name [0x68] (by decide +kernel)

/-- The address `[::1]`. -/
def loopback : Host := .literal [0x3A, 0x3A, 0x31] (by decide +kernel)

/-- A host without a port. -/
def bare (host : Host) : Authority := ⟨host, none, by simp⟩

/-- A host with port 80. -/
def withPort (host : Host) : Authority := ⟨host, some [0x38, 0x30], by simp [isDigit]⟩

/-- The origin of an authority over `http`. -/
def httpOrigin (authority : Authority) : Origin :=
  ⟨http, by decide +kernel, authority, false, false, false⟩

/-- A request over `http` from an origin. -/
def request (own : Authority) (origin : Str) : Request := ⟨origin, false, own.text, none⟩

/-- A request to `h:80` from `http://h`, and one from `http://h/a`. -/
theorem check_same_origin_iff_name :
    (checkSameOrigin id (request (withPort name) (httpOrigin (bare name)).text) = true ↔
      IsSameOrigin (request (withPort name) (httpOrigin (bare name)).text) (withPort name)
        (httpOrigin (bare name))) ∧
      checkSameOrigin id
        (request (withPort name) ((httpOrigin (bare name)).text ++ [slash, 0x61])) = false := by
  constructor
  · refine (((check_same_origin_iff id).1 _ _ _ rfl rfl).1 (by decide)).mpr fun h ↦ ?_
    rcases h.2 with hmixed | hpadded
    · exact Bool.false_ne_true hmixed.1
    · exact hpadded rfl
  · refine (check_same_origin_iff id).2 _ (by decide +kernel) (.inr (.inr (.inl ?_)))
    decide +kernel

/-- A request to `[::1]:80` from `http://[::1]` is refused. -/
theorem literal_without_port_refused :
    checkSameOrigin id (request (withPort loopback) (httpOrigin (bare loopback)).text) = false ∧
      IsSameOrigin (request (withPort loopback) (httpOrigin (bare loopback)).text)
        (withPort loopback) (httpOrigin (bare loopback)) :=
  ⟨by decide +kernel, rfl, rfl, rfl⟩

end AllRelay.SameOrigin
