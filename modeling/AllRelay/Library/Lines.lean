import Mathlib.Data.List.DropRight
import Mathlib.Data.List.TakeWhile

/-!
# Lines and fields of text

Text over any alphabet of code units: trimming at both ends, splitting at the first blank, and the
lines of a file, which `\n`, `\r` or both end.
-/

namespace Lines

variable {α : Type*} {p : α → Bool} {text : List α}

/-! ### Trimming -/

/-- Text without the units of `p` at its ends. -/
def trim (p : α → Bool) (text : List α) : List α :=
  (text.dropWhile p).rdropWhile p

/-- Text with no unit of `p` at an end. -/
structure Trimmed (p : α → Bool) (text : List α) : Prop where
  first : ∀ a ∈ text.head?, p a = false
  last : ∀ a ∈ text.getLast?, p a = false

theorem trimmed_nil : Trimmed p [] where
  first a ha := by cases ha
  last a ha := by cases ha

theorem trimmed_trim (p : α → Bool) (text : List α) : Trimmed p (trim p text) where
  first a ha := by
    obtain ⟨rest, heq⟩ := List.head?_eq_some_iff.mp ha
    obtain ⟨behind, hpre⟩ := List.rdropWhile_prefix p (text.dropWhile p)
    have hhead := List.head?_dropWhile_not p text
    rw [← hpre, ← trim, heq] at hhead
    exact hhead
  last a ha := by
    obtain ⟨front, heq⟩ := List.getLast?_eq_some_iff.mp ha
    have hne : (text.dropWhile p).rdropWhile p ≠ [] := by
      rw [← trim, heq]
      exact List.append_ne_nil_of_right_ne_nil _ (List.cons_ne_nil a [])
    have hlast : ((text.dropWhile p).rdropWhile p).getLast hne = a :=
      List.getLast_of_mem_getLast? ha
    exact eq_false_of_ne_true (hlast ▸ List.rdropWhile_last_not p _ hne)

theorem Trimmed.trim_eq (h : Trimmed p text) : trim p text = text := by
  have hfirst : text.dropWhile p = text := by
    cases text with
    | nil => rfl
    | cons a text => exact List.dropWhile_cons_of_neg (by simp [h.first a rfl])
  rw [trim, hfirst]
  refine List.rdropWhile_eq_self_iff.mpr fun hne hp ↦ ?_
  rw [h.last _ (List.getLast?_eq_some_getLast hne)] at hp
  cases hp

/-- What is around trimmed text is trimmed off. -/
theorem trim_append {before behind : List α} (h : Trimmed p text) (hne : text ≠ [])
    (hbefore : ∀ a ∈ before, p a = true) (hbehind : ∀ a ∈ behind, p a = true) :
    trim p (before ++ text ++ behind) = text := by
  obtain ⟨a, rest, hcons⟩ := List.exists_cons_of_ne_nil hne
  have hfirst : (before ++ text ++ behind).dropWhile p = text ++ behind := by
    rw [List.append_assoc, List.dropWhile_append_of_pos hbefore, hcons, List.cons_append,
      List.dropWhile_cons_of_neg (by simp [h.first a (by rw [hcons]; rfl)])]
  have hlast : (text ++ behind).rdropWhile p = text.rdropWhile p := by
    rw [List.rdropWhile, List.rdropWhile, List.reverse_append,
      List.dropWhile_append_of_pos fun b hb ↦ hbehind b (List.mem_reverse.mp hb)]
  have hself := h.trim_eq
  have hdrop : text.dropWhile p = text := by
    rw [hcons]
    exact List.dropWhile_cons_of_neg (by simp [h.first a (by rw [hcons]; rfl)])
  rw [trim, hdrop] at hself
  rw [trim, hfirst, hlast, hself]

/-! ### Fields -/

/-- Text split at the first run of `p`: the first field, and the rest if there is a run. -/
def splitFirst (p : α → Bool) (text : List α) : List α × Option (List α) :=
  match text.dropWhile (!p ·) with
  | [] => (text, none)
  | rest => (text.takeWhile (!p ·), some (rest.dropWhile p))

/-- Text without a run is one field. -/
theorem splitFirst_of_not_mem (h : ∀ a ∈ text, p a = false) : splitFirst p text = (text, none) := by
  have hnil : text.dropWhile (!p ·) = [] :=
    List.dropWhile_eq_nil_iff.mpr fun a ha ↦ by rw [h a ha]; rfl
  rw [splitFirst, hnil]

/-- Two fields with one separator. -/
theorem splitFirst_append {field rest : List α} {a : α} (hfield : ∀ b ∈ field, p b = false)
    (ha : p a = true) (hrest : ∀ b ∈ rest.head?, p b = false) :
    splitFirst p (field ++ a :: rest) = (field, some rest) := by
  have hdrop : (field ++ a :: rest).dropWhile (!p ·) = a :: rest := by
    rw [List.dropWhile_append_of_pos fun b hb ↦ by simp [hfield b hb],
      List.dropWhile_cons_of_neg (by simp [ha])]
  have htake : (field ++ a :: rest).takeWhile (!p ·) = field := by
    rw [List.takeWhile_append_of_pos fun b hb ↦ by simp [hfield b hb],
      List.takeWhile_cons_of_neg (by simp [ha]), List.append_nil]
  have hself : rest.dropWhile p = rest := by
    cases rest with
    | nil => rfl
    | cons b rest => exact List.dropWhile_cons_of_neg (by simp [hrest b rfl])
  rw [splitFirst, hdrop]
  simp only [htake, List.dropWhile_cons_of_pos ha, hself]

/-! ### Lines -/

/-- The lines of UTF-16 text. -/
def lineSequence : List UInt16 → List (List UInt16)
  | [] => [[]]
  | 0x0D :: 0x0A :: rest => [] :: lineSequence rest
  | c :: rest =>
    if c = 0x0D ∨ c = 0x0A then [] :: lineSequence rest
    else
      match lineSequence rest with
      | [] => [[c]]
      | line :: lines => (c :: line) :: lines

/-- Lines that are ended by `\n`. -/
def unlines (lines : List (List UInt16)) : List UInt16 :=
  lines.flatMap (· ++ [0x0A])

/-- Lines that are joined, with a line break at the end. -/
theorem intercalate_append {lines : List (List UInt16)} (h : lines ≠ []) :
    List.intercalate [0x0A] lines ++ [0x0A] = unlines lines := by
  induction lines with
  | nil => exact absurd rfl h
  | cons line lines ih =>
    cases lines with
    | nil => simp [unlines]
    | cons next lines =>
      have hnext := ih (List.cons_ne_nil next lines)
      rw [unlines, List.flatMap_cons, ← unlines, ← hnext]
      simp [List.intercalate]

/-- A line has no line break. -/
def IsLine (line : List UInt16) : Prop :=
  ∀ c ∈ line, c ≠ 0x0D ∧ c ≠ 0x0A

theorem lineSequence_append {line : List UInt16} (h : IsLine line) (rest : List UInt16) :
    lineSequence (line ++ 0x0A :: rest) = line :: lineSequence rest := by
  induction line with
  | nil => simp [lineSequence]
  | cons c line ih =>
    obtain ⟨hcr, hlf⟩ := h c List.mem_cons_self
    have hrest := ih fun d hd ↦ h d (List.mem_cons_of_mem c hd)
    rw [List.cons_append, lineSequence, hrest, if_neg (by simp [hcr, hlf])]
    simp [hcr]

/-- **Lines are read back**, with an empty one behind the last line break. -/
theorem lineSequence_unlines {lines : List (List UInt16)} (h : ∀ line ∈ lines, IsLine line) :
    lineSequence (unlines lines) = lines ++ [[]] := by
  induction lines with
  | nil => rfl
  | cons line lines ih =>
    rw [unlines, List.flatMap_cons, List.append_assoc, List.singleton_append,
      lineSequence_append (h line List.mem_cons_self)]
    exact congrArg _ (ih fun l hl ↦ h l (List.mem_cons_of_mem _ hl))

end Lines
