import AllRelay.Library.LinkedMap
import AllRelay.Phone.Kotlin

/-!
# The authorised ADB keys

A line of `adb_keys` is the material of a key, which is 700 characters of Base64, and a comment.
`mergeAdbKeyLines` rebuilds the file: it normalises the lines, keeps the first one of each key, and
puts the requested one at the end (`mergeAdbKeyLines_eq`).

A normalised line is the material, or the material, a blank and a comment of printable ASCII that is
trimmed (`keyLine`), so that normalising it again or reading it back from the file changes nothing.
-/

namespace AllRelay.AdbKeys

open Kotlin Lines

/-! ### Characters -/

/-- Whose regular expressions are used. -/
inductive Platform where
  /-- The app. -/
  | android
  /-- The unit tests. -/
  | jvm
deriving DecidableEq, Repr

/-- `\s`: on Android, the white space of Unicode. -/
def regexSpace : Platform → UInt16 → Bool
  | .jvm, c => c == 0x20 || 0x09 ≤ c && c ≤ 0x0D
  | .android, c =>
    0x09 ≤ c && c ≤ 0x0D || c == 0x20 || c == 0x85 || c == 0xA0 || c == 0x1680 ||
      0x2000 ≤ c && c ≤ 0x200A || c == 0x2028 || c == 0x2029 || c == 0x202F || c == 0x205F ||
      c == 0x3000

/-- The value of a Base64 digit. -/
def base64Value (c : UInt16) : Option UInt8 :=
  if 0x41 ≤ c ∧ c ≤ 0x5A then some (c - 0x41).toUInt8
  else if 0x61 ≤ c ∧ c ≤ 0x7A then some (c - 0x61 + 26).toUInt8
  else if 0x30 ≤ c ∧ c ≤ 0x39 then some (c - 0x30 + 52).toUInt8
  else if c = 0x2B then some 62
  else if c = 0x2F then some 63
  else none

/-- The byte of two digits. -/
def decodeTwo (a b : UInt16) : Option (List UInt8) := do
  let a ← base64Value a
  let b ← base64Value b
  some [a <<< 2 ||| b >>> 4]

/-- The bytes of three digits. -/
def decodeThree (a b c : UInt16) : Option (List UInt8) := do
  let a ← base64Value a
  let b ← base64Value b
  let c ← base64Value c
  some [a <<< 2 ||| b >>> 4, b <<< 4 ||| c >>> 2]

/-- `Base64.getDecoder().decode`, nothing when it throws. -/
def decodeBase64 : Text → Option (List UInt8)
  | [] => some []
  | [_] => none
  | [a, b] => decodeTwo a b
  | [a, b, c] => decodeThree a b c
  | a :: b :: c :: d :: rest =>
    -- padding ends the text
    if d = 0x3D ∧ rest = [] then
      if c = 0x3D then decodeTwo a b else decodeThree a b c
    else do
      let bytes ← decodeThree a b c
      let c ← base64Value c
      let d ← base64Value d
      let rest ← decodeBase64 rest
      some (bytes ++ (c <<< 6 ||| d) :: rest)

/-! ### Lines -/

/-- `ADB_PUBLIC_KEY_ENCODED_LENGTH`. -/
def adbPublicKeyEncodedLength : ℕ := 700

/-- `ADB_PUBLIC_KEY_DECODED_LENGTH`. -/
def adbPublicKeyDecodedLength : ℕ := 524

/-- The checks on the material of a key; its first word is the length of the modulus in words. -/
def isMaterial (material : Text) : Bool :=
  material.length = adbPublicKeyEncodedLength &&
    material.getLast? = some 0x3D &&
    (material.dropLast ≠ [] && material.dropLast.all fun c ↦ (base64Value c).isSome) &&
    match decodeBase64 material with
    | none => false
    | some decoded => decoded.length = adbPublicKeyDecodedLength && decoded.take 4 = [64, 0, 0, 0]

/-- The checks on a comment. -/
def isComment (comment : Text) : Bool :=
  comment.length ≤ 1024 && comment.all fun c ↦ 0x20 ≤ c && c ≤ 0x7E

/-- `normalizeAdbKeyLine`. -/
def normalizeAdbKeyLine (platform : Platform) (line : Text) : Option Text :=
  if line.any fun c ↦ c = 0x0D ∨ c = 0x0A then none
  else
    let trimmed := trim isWhitespace line
    if trimmed = [] ∨ 2048 < trimmed.length then none
    else
      let (material, rest) := splitFirst (regexSpace platform) trimmed
      if !isMaterial material then none
      else
        match rest.map (trim isWhitespace) with
        | none => some material
        | some comment =>
          if !isComment comment then none
          else if comment = [] then some material
          else some (material ++ 0x20 :: comment)

/-- `substringBefore(' ')`. -/
def substringBefore (line : Text) : Text :=
  line.takeWhile (· ≠ 0x20)

/-- A valid line is entered unless its key is there. -/
def enterLine (platform : Platform) (keysByMaterial : LinkedMap Text Text) (line : Text) :
    LinkedMap Text Text :=
  match normalizeAdbKeyLine platform line with
  | none => keysByMaterial
  | some normalized => keysByMaterial.putIfAbsent (substringBefore normalized) normalized

/-- `mergeAdbKeyLines`. -/
def mergeAdbKeyLines (platform : Platform) (existing : List Text) (requested : Text) :
    Option (List Text) := do
  let normalizedRequested ← normalizeAdbKeyLine platform requested
  let keysByMaterial := existing.foldl (enterLine platform) .empty
  let requestedMaterial := substringBefore normalizedRequested
  some ((keysByMaterial.remove requestedMaterial).put requestedMaterial normalizedRequested).values

/-- The text that `replaceAdbKeyFile` writes. -/
def fileText (keys : List Text) : Text :=
  List.intercalate [0x0A] keys ++ [0x0A]

/-! ### Normal lines -/

/-- What a normalised line is made of. -/
structure KeyParts (material comment : Text) : Prop where
  isMaterial : isMaterial material = true
  isComment : isComment comment = true
  trimmed : Trimmed isWhitespace comment

/-- A normalised line. -/
def keyLine (material comment : Text) : Text :=
  if comment = [] then material else material ++ 0x20 :: comment

variable {platform : Platform} {material comment line normalized : Text}

/-- What makes a unit printable and no blank. -/
theorem visible_of_digit {c : UInt16} (h : (base64Value c).isSome = true ∨ c = 0x3D) :
    0x21 ≤ c ∧ c ≤ 0x7E := by
  obtain h | rfl := h
  · simp only [base64Value, UInt16.le_iff_toNat_le, ← UInt16.toNat_inj,
      UInt16.reduceToNat] at h ⊢
    split_ifs at h
    · omega
    · omega
    · omega
    · omega
    · omega
    · cases h
  · decide

theorem regexSpace_of_visible {c : UInt16} (hlo : 0x21 ≤ c) (hhi : c ≤ 0x7E) :
    regexSpace platform c = false := by
  cases platform <;> simp [regexSpace, UInt16.le_iff_toNat_le, ← UInt16.toNat_inj] at * <;> omega

theorem regexSpace_blank : regexSpace platform 0x20 = true := by
  cases platform <;> rfl

/-- The units of a material are visible. -/
theorem visible_of_isMaterial (h : isMaterial material = true) :
    ∀ c ∈ material, 0x21 ≤ c ∧ c ≤ 0x7E := by
  intro c hc
  simp only [isMaterial, Bool.and_eq_true, decide_eq_true_eq, List.all_eq_true] at h
  obtain ⟨⟨⟨-, hlast⟩, -, hdigits⟩, -⟩ := h
  obtain ⟨digits, rfl⟩ := List.getLast?_eq_some_iff.mp hlast
  rw [List.dropLast_concat] at hdigits
  obtain hc | hc := List.mem_append.mp hc
  · exact visible_of_digit (.inl (hdigits c hc))
  · exact visible_of_digit (.inr (List.mem_singleton.mp hc))

theorem length_of_isMaterial (h : isMaterial material = true) : material.length = 700 := by
  simp only [isMaterial, Bool.and_eq_true, decide_eq_true_eq] at h
  exact h.1.1.1

theorem isComment_iff :
    isComment comment = true ↔ comment.length ≤ 1024 ∧ ∀ c ∈ comment, 0x20 ≤ c ∧ c ≤ 0x7E := by
  simp only [isComment, Bool.and_eq_true, decide_eq_true_eq, List.all_eq_true]

/-- A blank does not begin a trimmed comment. -/
theorem KeyParts.visible_head (h : KeyParts material comment) :
    ∀ c ∈ comment.head?, 0x21 ≤ c ∧ c ≤ 0x7E := by
  intro c hc
  obtain ⟨hlo, hhi⟩ := (isComment_iff.mp h.isComment).2 c (List.mem_of_mem_head? hc)
  have hne : c ≠ 0x20 := by
    rintro rfl
    exact absurd (h.trimmed.first _ hc) (by decide)
  simp only [UInt16.le_iff_toNat_le, ne_eq, ← UInt16.toNat_inj, UInt16.reduceToNat] at hlo hne ⊢
  exact ⟨by omega, hhi⟩

/-- A normalised line is printable. -/
theorem KeyParts.printable (h : KeyParts material comment) :
    ∀ c ∈ keyLine material comment, 0x20 ≤ c ∧ c ≤ 0x7E := by
  have hmaterial : ∀ c ∈ material, 0x20 ≤ c ∧ c ≤ 0x7E := fun c hc ↦
    (visible_of_isMaterial h.isMaterial c hc).imp_left (UInt16.le_trans (by decide))
  intro c hc
  rw [keyLine] at hc
  split at hc
  · exact hmaterial c hc
  · obtain hc | hc := List.mem_append.mp hc
    · exact hmaterial c hc
    · obtain rfl | hc := List.mem_cons.mp hc
      · decide
      · exact (isComment_iff.mp h.isComment).2 c hc

/-- A normalised line has no line break. -/
theorem KeyParts.isLine (h : KeyParts material comment) : IsLine (keyLine material comment) := by
  intro c hc
  have hlo := (h.printable c hc).1
  constructor <;> rintro rfl <;> exact absurd hlo (by decide)

/-- The material of a normalised line. -/
theorem KeyParts.substringBefore (h : KeyParts material comment) :
    substringBefore (keyLine material comment) = material := by
  have hmaterial : ∀ c ∈ material, decide (c ≠ 0x20) = true := fun c hc ↦ by
    have hlo := (visible_of_isMaterial h.isMaterial c hc).1
    refine decide_eq_true ?_
    rintro rfl
    exact absurd hlo (by decide)
  rw [AdbKeys.substringBefore, keyLine]
  split
  · exact List.takeWhile_eq_self_iff.mpr hmaterial
  · rw [List.takeWhile_append_of_pos hmaterial, List.takeWhile_cons_of_neg (by decide),
      List.append_nil]

theorem KeyParts.length_le (h : KeyParts material comment) :
    (keyLine material comment).length ≤ 2048 := by
  have hmaterial := length_of_isMaterial h.isMaterial
  have hcomment := (isComment_iff.mp h.isComment).1
  rw [keyLine]
  split
  · omega
  · rw [List.length_append, List.length_cons]
    omega

theorem KeyParts.material_ne_nil (h : KeyParts material comment) : material ≠ [] := by
  rintro rfl
  exact absurd (length_of_isMaterial h.isMaterial) (by decide)

/-- A normalised line is trimmed. -/
theorem KeyParts.trimmed_keyLine (h : KeyParts material comment) :
    Trimmed isWhitespace (keyLine material comment) := by
  have hvisible (c : UInt16) (hc : c ∈ material) : isWhitespace c = false :=
    isWhitespace_of_visible (visible_of_isMaterial h.isMaterial c hc).1
      (visible_of_isMaterial h.isMaterial c hc).2
  rw [keyLine]
  split
  case isTrue hnil =>
    exact ⟨fun c hc ↦ hvisible c (List.mem_of_mem_head? hc),
      fun c hc ↦ hvisible c (List.mem_of_getLast? hc)⟩
  case isFalse hne =>
    refine ⟨fun c hc ↦ ?_, fun c hc ↦ ?_⟩
    · rw [List.head?_append_of_ne_nil _ h.material_ne_nil] at hc
      exact hvisible c (List.mem_of_mem_head? hc)
    · rw [List.getLast?_append_of_ne_nil _ (List.cons_ne_nil _ _),
        List.getLast?_cons_of_ne_nil hne] at hc
      exact h.trimmed.last c hc

/-- A normalised line splits into its parts. -/
theorem KeyParts.splitFirst (h : KeyParts material comment) :
    splitFirst (regexSpace platform) (keyLine material comment) =
      (material, if comment = [] then none else some comment) := by
  have hmaterial : ∀ c ∈ material, regexSpace platform c = false := fun c hc ↦
    regexSpace_of_visible (visible_of_isMaterial h.isMaterial c hc).1
      (visible_of_isMaterial h.isMaterial c hc).2
  rw [keyLine]
  split
  · exact splitFirst_of_not_mem hmaterial
  · refine splitFirst_append hmaterial regexSpace_blank fun c hc ↦ ?_
    exact regexSpace_of_visible (h.visible_head c hc).1 (h.visible_head c hc).2

/-- **Normal lines** are not changed. -/
theorem normalizeAdbKeyLine_keyLine (h : KeyParts material comment) :
    normalizeAdbKeyLine platform (keyLine material comment) = some (keyLine material comment) := by
  have hbreak : ¬(keyLine material comment).any (fun c ↦ c = 0x0D ∨ c = 0x0A) = true := by
    intro hany
    obtain ⟨c, hc, hbreak⟩ := List.any_eq_true.mp hany
    exact absurd (of_decide_eq_true hbreak) (not_or.mpr (h.isLine c hc))
  have hlen : ¬(keyLine material comment = [] ∨ 2048 < (keyLine material comment).length) := by
    have hle := h.length_le
    rintro (hnil | hlt)
    · have hmaterial := h.substringBefore
      rw [hnil] at hmaterial
      exact h.material_ne_nil hmaterial.symm
    · omega
  rw [normalizeAdbKeyLine, if_neg hbreak, h.trimmed_keyLine.trim_eq]
  simp only [if_neg hlen, h.splitFirst, h.isMaterial, Bool.not_true, Bool.false_eq_true, if_false]
  by_cases hnil : comment = []
  · simp only [if_pos hnil, Option.map_none, keyLine]
  · simp only [if_neg hnil, Option.map_some, h.trimmed.trim_eq, h.isComment, Bool.not_true,
      Bool.false_eq_true, if_false, keyLine]

/-- **What `normalizeAdbKeyLine` returns** is a normal line. -/
theorem keyParts_of_normalizeAdbKeyLine (h : normalizeAdbKeyLine platform line = some normalized) :
    ∃ material comment, KeyParts material comment ∧ normalized = keyLine material comment := by
  rw [normalizeAdbKeyLine] at h
  obtain ⟨⟨material, rest⟩, hsplit⟩ : ∃ parts,
      splitFirst (regexSpace platform) (trim isWhitespace line) = parts := ⟨_, rfl⟩
  simp only [hsplit] at h
  split at h
  · cases h
  split at h
  · cases h
  split at h
  · cases h
  rename_i hmaterial
  have hmaterial : isMaterial material = true := by simpa using hmaterial
  cases rest with
  | none =>
    obtain rfl := Option.some.inj h
    exact ⟨material, [], ⟨hmaterial, rfl, trimmed_nil⟩, rfl⟩
  | some rest =>
    simp only [Option.map_some] at h
    split at h
    · cases h
    rename_i hcomment
    have hcomment : isComment (trim isWhitespace rest) = true := by simpa using hcomment
    refine ⟨material, trim isWhitespace rest, ⟨hmaterial, hcomment, trimmed_trim _ _⟩, ?_⟩
    rw [keyLine]
    split at h <;> rename_i hnil
    · rw [if_pos hnil]
      exact (Option.some.inj h).symm
    · rw [if_neg hnil]
      exact (Option.some.inj h).symm

/-- `normalizeAdbKeyLine` is idempotent. -/
theorem normalizeAdbKeyLine_idempotent
    (h : normalizeAdbKeyLine platform line = some normalized) :
    normalizeAdbKeyLine platform normalized = some normalized := by
  obtain ⟨material, comment, hparts, rfl⟩ := keyParts_of_normalizeAdbKeyLine h
  exact normalizeAdbKeyLine_keyLine hparts

/-! ### Merging -/

variable {existing keys : List Text} {requested : Text}

/-- Invalid lines are dropped. -/
theorem foldl_enterLine (existing : List Text) (m : LinkedMap Text Text) :
    existing.foldl (enterLine platform) m =
      (existing.filterMap (normalizeAdbKeyLine platform)).foldl
        (fun m normalized ↦ m.putIfAbsent (substringBefore normalized) normalized) m := by
  induction existing generalizing m with
  | nil => rfl
  | cons line existing ih =>
    rw [List.foldl_cons, ih, enterLine]
    cases hline : normalizeAdbKeyLine platform line with
    | none => rw [List.filterMap_cons_none hline]
    | some normalized => rw [List.filterMap_cons_some hline, List.foldl_cons]

/-- **The merge**: the first lines of the other keys, then the requested one. -/
theorem mergeAdbKeyLines_eq (h : normalizeAdbKeyLine platform requested = some normalized)
    (existing : List Text) :
    mergeAdbKeyLines platform existing requested =
      some (firstByThen substringBefore (existing.filterMap (normalizeAdbKeyLine platform))
        normalized) := by
  rw [mergeAdbKeyLines, h, foldl_enterLine]
  exact congrArg some (LinkedMap.values_put_remove_foldl _ normalized)

theorem mergeAdbKeyLines_congr {existing' : List Text}
    (h : existing.filterMap (normalizeAdbKeyLine platform) =
      existing'.filterMap (normalizeAdbKeyLine platform)) (requested : Text) :
    mergeAdbKeyLines platform existing requested =
      mergeAdbKeyLines platform existing' requested := by
  cases hnormalized : normalizeAdbKeyLine platform requested with
  | none => rw [mergeAdbKeyLines, mergeAdbKeyLines, hnormalized]; rfl
  | some normalized => rw [mergeAdbKeyLines_eq hnormalized, mergeAdbKeyLines_eq hnormalized, h]

/-- A file that is written is read back, with an empty line at the end. -/
theorem lineSequence_fileText (hkeys : ∀ key ∈ keys, IsLine key) (hne : keys ≠ []) :
    lineSequence (fileText keys) = keys ++ [[]] := by
  rw [fileText, intercalate_append hne, lineSequence_unlines hkeys]

/-- The result of a merge. -/
structure Merged (platform : Platform) (existing : List Text) (line : Text) (keys : List Text) :
    Prop where
  /-- Normal lines, -/
  normal : ∀ key ∈ keys, normalizeAdbKeyLine platform key = some key
  /-- one for each key, -/
  nodup : (keys.map substringBefore).Nodup
  /-- of the keys that were valid and the requested one, -/
  materials (material : Text) : material ∈ keys.map substringBefore ↔
    material = substringBefore line ∨
      ∃ old ∈ existing, ∃ normalized, normalizeAdbKeyLine platform old = some normalized ∧
        substringBefore normalized = material
  /-- the first line of each other key in the order of the file, and the requested one last. -/
  order : keys =
    (firstBy substringBefore (existing.filterMap (normalizeAdbKeyLine platform))).filter
      (substringBefore · ≠ substringBefore line) ++ [line]

theorem merged (h : normalizeAdbKeyLine platform requested = some normalized)
    (existing : List Text) : ∃ keys, mergeAdbKeyLines platform existing requested = some keys ∧
      Merged platform existing normalized keys := by
  refine ⟨_, mergeAdbKeyLines_eq h existing, ?_, nodup_map_firstByThen _ _, fun material ↦ ?_, rfl⟩
  · intro key hkey
    obtain hkey | hkey := List.mem_append.mp hkey
    · have hmem := (firstBy_sublist _).subset (List.mem_filter.mp hkey).1
      obtain ⟨old, -, hold⟩ := List.mem_filterMap.mp hmem
      exact normalizeAdbKeyLine_idempotent hold
    · rw [List.mem_singleton.mp hkey]
      exact normalizeAdbKeyLine_idempotent h
  · rw [mem_map_firstByThen]
    simp only [List.mem_map, List.mem_filterMap]
    constructor
    · rintro (heq | ⟨normalized, ⟨old, hold, hnormalized⟩, heq⟩)
      · exact .inl heq
      · exact .inr ⟨old, hold, normalized, hnormalized, heq⟩
    · rintro (heq | ⟨old, hold, normalized, hnormalized, heq⟩)
      · exact .inl heq
      · exact .inr ⟨normalized, ⟨old, hold, hnormalized⟩, heq⟩

theorem Merged.filterMap_eq {line : Text} (h : Merged platform existing line keys) :
    keys.filterMap (normalizeAdbKeyLine platform) = keys := by
  rw [List.filterMap_congr h.normal, List.filterMap_some]

/-- **ADB keys.** A merge leaves one normal line for each valid key, the first one that the file had
in the order of the file, and the requested one at the end. Normalising a normal line, merging the
same line again, and writing the file and reading it back change nothing. -/
theorem adb_key_merge (h : normalizeAdbKeyLine platform requested = some normalized)
    (existing : List Text) :
    normalizeAdbKeyLine platform normalized = some normalized ∧
      ∃ keys, mergeAdbKeyLines platform existing requested = some keys ∧
        Merged platform existing normalized keys ∧
        mergeAdbKeyLines platform keys requested = some keys ∧
        ∀ other, mergeAdbKeyLines platform (lineSequence (fileText keys)) other =
          mergeAdbKeyLines platform keys other := by
  obtain ⟨keys, hmerge, hkeys⟩ := merged h existing
  have hisLine : ∀ key ∈ keys, IsLine key := fun key hkey ↦ by
    obtain ⟨material, comment, hparts, rfl⟩ :=
      keyParts_of_normalizeAdbKeyLine (hkeys.normal key hkey)
    exact hparts.isLine
  have hne : keys ≠ [] := by
    rw [hkeys.order]
    exact List.append_ne_nil_of_right_ne_nil _ (List.cons_ne_nil _ [])
  refine ⟨normalizeAdbKeyLine_idempotent h, keys, hmerge, hkeys, ?_, fun other ↦ ?_⟩
  · have hagain := @firstByThen_self _ _ _ substringBefore
      (existing.filterMap (normalizeAdbKeyLine platform)) normalized
    rw [mergeAdbKeyLines_eq h, hkeys.filterMap_eq, hkeys.order]
    exact congrArg some hagain
  · refine mergeAdbKeyLines_congr ?_ other
    rw [lineSequence_fileText hisLine hne, List.filterMap_append]
    exact List.append_nil _

/-- The key of 524 bytes that are 0 but for the length of the modulus. -/
def sampleMaterial : Text :=
  0x51 :: List.replicate 698 0x41 ++ [0x3D]

theorem normalizeAdbKeyLine_sample :
    normalizeAdbKeyLine .android (sampleMaterial ++ [0x20, 0x68]) =
      some (sampleMaterial ++ [0x20, 0x68]) := by
  decide +kernel

/-- That key, into a file that has it already with another comment. -/
theorem adb_key_merge_sample :
    ∃ keys, mergeAdbKeyLines .android [sampleMaterial, []] (sampleMaterial ++ [0x20, 0x68]) =
        some keys ∧
      Merged .android [sampleMaterial, []] (sampleMaterial ++ [0x20, 0x68]) keys ∧
      mergeAdbKeyLines .android keys (sampleMaterial ++ [0x20, 0x68]) = some keys ∧
      ∀ other, mergeAdbKeyLines .android (lineSequence (fileText keys)) other =
        mergeAdbKeyLines .android keys other :=
  (adb_key_merge normalizeAdbKeyLine_sample [sampleMaterial, []]).2

end AllRelay.AdbKeys
