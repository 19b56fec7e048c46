import Mathlib.Data.Int.Basic
import Mathlib.Tactic.Linarith
import Mathlib.Tactic.Ring

/-!
# The size of the video

`Size.constrain` fits the size of a capture into what the user asked for and the codec supports. It
computes with `int`s, so the products of two sides wrap around from 46341 pixels on; below, its
assertions hold. Assertions have no effect when they are not enabled, so they stand beside the
function and not in it.
-/

namespace AllRelay.Video

/-- The value of an `int` expression. -/
def intValue (n : ℤ) : ℤ := n.bmod (2 ^ 32)

/-- `Size`. -/
@[ext]
structure Size where
  /-- The width. -/
  width : ℤ
  /-- The height. -/
  height : ℤ
deriving DecidableEq, Repr

/-- `VideoConstraints`. -/
structure VideoConstraints where
  /-- The requested maximum, or 0. -/
  maxSize : ℤ
  /-- What the sides must be multiples of. -/
  alignment : ℤ
  /-- The largest landscape size of the codec. -/
  maxCodecLandscapeSize : Size
  /-- The largest portrait size of the codec. -/
  maxCodecPortraitSize : Size
  /-- The smallest side of the codec. -/
  minCodecSize : ℤ
deriving DecidableEq, Repr

/-- `withMaxSize`. -/
def VideoConstraints.withMaxSize (constraints : VideoConstraints) (maxSize : ℤ) :
    VideoConstraints :=
  { constraints with maxSize }

namespace Size

/-- `getMax`. -/
def getMax (size : Size) : ℤ := max size.width size.height

/-- `align`. -/
def align (value alignment : ℤ) : ℤ := intValue (value.tdiv alignment * alignment)

/-- `alignUp`. -/
def alignUp (value alignment : ℤ) : ℤ :=
  intValue ((intValue (intValue (value + alignment) - 1)).tdiv alignment * alignment)

/-- `maxWidth` and `maxHeight` in `constrain`. -/
def bounds (size : Size) (constraints : VideoConstraints) : Size :=
  let maxCodecSize := if size.width < size.height then constraints.maxCodecPortraitSize
    else constraints.maxCodecLandscapeSize
  let limit (side : ℤ) := if constraints.maxSize > 0 ∧ side > constraints.maxSize
    then constraints.maxSize else side
  ⟨align (limit maxCodecSize.width) constraints.alignment,
    align (limit maxCodecSize.height) constraints.alignment⟩

/-- `w` and `h` in `constrain`, before they are aligned. -/
def scale (size bounds : Size) (preserveAspectRatio : Bool) : Size :=
  if preserveAspectRatio then
    if size.width > bounds.width ∨ size.height > bounds.height then
      if intValue (size.width * bounds.height) > intValue (size.height * bounds.width) then
        ⟨bounds.width, (intValue (size.height * bounds.width)).tdiv size.width⟩
      else ⟨(intValue (size.width * bounds.height)).tdiv size.height, bounds.height⟩
    else size
  else ⟨min size.width bounds.width, min size.height bounds.height⟩

/-- `w` and `h` in `constrain`, aligned. -/
def fit (size : Size) (constraints : VideoConstraints) (preserveAspectRatio : Bool) : Size :=
  let scaled := size.scale (size.bounds constraints) preserveAspectRatio
  ⟨align scaled.width constraints.alignment, align scaled.height constraints.alignment⟩

/-- `constrain`, with the flag that its first form leaves true. -/
def constrain (size : Size) (constraints : VideoConstraints) (preserveAspectRatio : Bool := true) :
    Size :=
  let fitted := size.fit constraints preserveAspectRatio
  let minCodecSize := alignUp constraints.minCodecSize constraints.alignment
  ⟨if fitted.width < minCodecSize then minCodecSize else fitted.width,
    if fitted.height < minCodecSize then minCodecSize else fitted.height⟩

/-- The assertions of `constrain` about what it has computed. -/
structure Asserts (size : Size) (constraints : VideoConstraints) (preserveAspectRatio : Bool) :
    Prop where
  /-- The width does not exceed `maxWidth`. -/
  width_le : (size.fit constraints preserveAspectRatio).width ≤ (size.bounds constraints).width
  /-- The height does not exceed `maxHeight`. -/
  height_le : (size.fit constraints preserveAspectRatio).height ≤ (size.bounds constraints).height
  /-- The width is a multiple of the alignment. -/
  width_aligned : (size.constrain constraints preserveAspectRatio).width % constraints.alignment = 0
  /-- The height is a multiple of the alignment. -/
  height_aligned :
    (size.constrain constraints preserveAspectRatio).height % constraints.alignment = 0

end Size

/-- A side below which no product of two sides wraps around. -/
def maxSide : ℤ := 46341

/-- A size with sides whose products are `int`s. -/
structure Size.Small (size : Size) : Prop where
  /-- The width is positive. -/
  width_pos : 0 < size.width
  /-- The height is positive. -/
  height_pos : 0 < size.height
  /-- The width is small. -/
  width_lt : size.width < maxSide
  /-- The height is small. -/
  height_lt : size.height < maxSide

/-- Constraints with sides whose products are `int`s, as the constructor asserts them. -/
structure VideoConstraints.Valid (constraints : VideoConstraints) : Prop where
  /-- The maximum is not negative. -/
  maxSize_nonneg : 0 ≤ constraints.maxSize
  /-- The alignment is positive. -/
  alignment_pos : 0 < constraints.alignment
  /-- The alignment is small. -/
  alignment_lt : constraints.alignment < maxSide
  /-- The largest landscape size is small. -/
  landscape : constraints.maxCodecLandscapeSize.Small
  /-- The largest portrait size is small. -/
  portrait : constraints.maxCodecPortraitSize.Small
  /-- The smallest side is not negative. -/
  minCodecSize_nonneg : 0 ≤ constraints.minCodecSize
  /-- The smallest side is small. -/
  minCodecSize_lt : constraints.minCodecSize < maxSide

namespace Size

variable {size : Size} {constraints : VideoConstraints} {value alignment : ℤ}

/-! ### Arithmetic -/

theorem intValue_eq {n : ℤ} (h₀ : 0 ≤ n) (h : n < 2 ^ 31) : intValue n = n := by
  rw [intValue]
  refine Int.bmod_eq_of_le ?_ ?_ <;> norm_num <;> omega

/-- The product of two sides. -/
theorem intValue_mul {a b : ℤ} (ha₀ : 0 ≤ a) (ha : a < maxSide) (hb₀ : 0 ≤ b) (hb : b < maxSide) :
    intValue (a * b) = a * b := by
  refine intValue_eq (mul_nonneg ha₀ hb₀) ?_
  have hle : a * b ≤ 46340 * 46340 :=
    mul_le_mul (Int.le_of_lt_add_one ha) (Int.le_of_lt_add_one hb) hb₀ (by norm_num)
  omega

/-- `align` rounds down to a multiple. -/
theorem align_spec (hv₀ : 0 ≤ value) (hv : value < 2 ^ 31) (ha : 0 < alignment) :
    align value alignment = value / alignment * alignment ∧
      alignment ∣ align value alignment ∧ 0 ≤ align value alignment ∧
        align value alignment ≤ value ∧ value < align value alignment + alignment := by
  have hle : value / alignment * alignment ≤ value := Int.ediv_mul_le value ha.ne'
  have hlt : value < value / alignment * alignment + alignment := by
    have h := Int.lt_ediv_add_one_mul_self value ha
    rwa [add_mul, one_mul] at h
  have hnonneg : 0 ≤ value / alignment * alignment :=
    mul_nonneg (Int.ediv_nonneg hv₀ ha.le) ha.le
  have heq : align value alignment = value / alignment * alignment := by
    rw [align, Int.tdiv_eq_ediv_of_nonneg hv₀, intValue_eq hnonneg (hle.trans_lt hv)]
  exact ⟨heq, heq ▸ Int.dvd_mul_left _ _, heq ▸ hnonneg, heq ▸ hle, heq ▸ hlt⟩

/-- `alignUp` rounds up to a multiple. -/
theorem alignUp_spec (hv₀ : 0 ≤ value) (hv : value < maxSide) (ha : 0 < alignment)
    (ha' : alignment < maxSide) :
    alignment ∣ alignUp value alignment ∧ value ≤ alignUp value alignment ∧
      alignUp value alignment < value + alignment := by
  have hm : maxSide = 46341 := rfl
  have hsum : intValue (intValue (value + alignment) - 1) = value + alignment - 1 := by
    rw [intValue_eq (n := value + alignment) (by omega) (by omega),
      intValue_eq (by omega) (by omega)]
  have hsum₀ : 0 ≤ value + alignment - 1 := by omega
  obtain ⟨-, hdvd, -, hle, hlt⟩ := align_spec hsum₀ (by omega) ha
  have heq : alignUp value alignment = align (value + alignment - 1) alignment := by
    rw [alignUp, hsum, align]
  rw [heq]
  exact ⟨hdvd, by omega, by omega⟩

/-- The bounds are small multiples. -/
theorem bounds_spec (hc : constraints.Valid) (size : Size) :
    constraints.alignment ∣ (size.bounds constraints).width ∧
      constraints.alignment ∣ (size.bounds constraints).height ∧
      0 ≤ (size.bounds constraints).width ∧ 0 ≤ (size.bounds constraints).height ∧
      (size.bounds constraints).width < maxSide ∧ (size.bounds constraints).height < maxSide ∧
      (0 < constraints.maxSize → (size.bounds constraints).getMax ≤ constraints.maxSize) := by
  have hm : maxSide = 46341 := rfl
  have hmax := hc.maxSize_nonneg
  obtain ⟨codec, hcodec, heq⟩ : ∃ codec : Size, codec.Small ∧
      (if size.width < size.height then constraints.maxCodecPortraitSize
        else constraints.maxCodecLandscapeSize) = codec := by
    split
    · exact ⟨_, hc.portrait, rfl⟩
    · exact ⟨_, hc.landscape, rfl⟩
  -- The limit of either side.
  have hside : ∀ side, 0 < side → side < maxSide →
      let limited := align (if constraints.maxSize > 0 ∧ side > constraints.maxSize
        then constraints.maxSize else side) constraints.alignment
      constraints.alignment ∣ limited ∧ 0 ≤ limited ∧ limited < maxSide ∧
        (0 < constraints.maxSize → limited ≤ constraints.maxSize) := by
    intro side hpos hlt
    obtain ⟨limit, hlimit, hlimit₀, hlimit_lt, hle_max⟩ : ∃ limit : ℤ,
        (if constraints.maxSize > 0 ∧ side > constraints.maxSize then constraints.maxSize
          else side) = limit ∧ 0 ≤ limit ∧ limit < maxSide ∧
        (0 < constraints.maxSize → limit ≤ constraints.maxSize) := by
      split
      · exact ⟨_, rfl, by omega, by omega, fun _ ↦ le_rfl⟩
      · exact ⟨_, rfl, by omega, by omega, by omega⟩
    simp only [hlimit]
    obtain ⟨-, hdvd, hnonneg, hle, -⟩ := align_spec hlimit₀ (by omega) hc.alignment_pos
    exact ⟨hdvd, hnonneg, hle.trans_lt hlimit_lt, fun hmax' ↦ hle.trans (hle_max hmax')⟩
  obtain ⟨hwd, hw₀, hwlt, hwmax⟩ := hside _ hcodec.width_pos hcodec.width_lt
  obtain ⟨hhd, hh₀, hhlt, hhmax⟩ := hside _ hcodec.height_pos hcodec.height_lt
  rw [bounds, heq]
  exact ⟨hwd, hhd, hw₀, hh₀, hwlt, hhlt, fun hmax' ↦ max_le (hwmax hmax') (hhmax hmax')⟩

/-! ### The fit -/

/-- What `scale` keeps: the result does not exceed the size and the bounds, is not smaller than it
must be, and has the aspect ratio of the size but for less than one pixel of one side. -/
structure Scaled (size bounds scaled : Size) : Prop where
  /-- The width is not negative. -/
  width_nonneg : 0 ≤ scaled.width
  /-- The height is not negative. -/
  height_nonneg : 0 ≤ scaled.height
  /-- The width is not larger. -/
  width_le : scaled.width ≤ min size.width bounds.width
  /-- The height is not larger. -/
  height_le : scaled.height ≤ min size.height bounds.height
  /-- One side is at its bound, or both are as they were. -/
  tight : scaled = size ∨
    scaled.width = bounds.width ∧ scaled.height * size.width ≤ size.height * bounds.width ∧
      size.height * bounds.width < (scaled.height + 1) * size.width ∨
    scaled.height = bounds.height ∧ scaled.width * size.height ≤ size.width * bounds.height ∧
      size.width * bounds.height < (scaled.width + 1) * size.height

/-- Scaling to the bound of one side. -/
theorem scale_side {a b boundA boundB : ℤ} (ha : 0 < a) (hb : 0 < b) (hA : 0 ≤ boundA)
    (hexceeds : boundA < a ∨ boundB < b) (hside : b * boundA ≤ a * boundB) :
    boundA ≤ a ∧ 0 ≤ b * boundA / a ∧ b * boundA / a ≤ boundB ∧ b * boundA / a ≤ b ∧
      b * boundA / a * a ≤ b * boundA ∧ b * boundA < (b * boundA / a + 1) * a := by
  have hle : boundA ≤ a := by
    by_contra hlt
    have hB' : boundB < b := hexceeds.resolve_left fun h ↦ hlt h.le
    have h₁ : a * boundB < a * b := Int.mul_lt_mul_of_pos_left hB' ha
    have h₂ : b * a < b * boundA := Int.mul_lt_mul_of_pos_left (not_le.1 hlt) hb
    rw [mul_comm b a] at h₂
    omega
  refine ⟨hle, Int.ediv_nonneg (mul_nonneg hb.le hA) ha.le, ?_, ?_, Int.ediv_mul_le _ ha.ne',
    Int.lt_ediv_add_one_mul_self _ ha⟩
  · calc b * boundA / a ≤ a * boundB / a := Int.ediv_le_ediv ha hside
      _ = boundB := Int.mul_ediv_cancel_left _ ha.ne'
  · calc b * boundA / a ≤ b * a / a := Int.ediv_le_ediv ha (mul_le_mul_of_nonneg_left hle hb.le)
      _ = b := Int.mul_ediv_cancel _ ha.ne'

theorem scale_spec (hs : size.Small) {bounds : Size} (hw₀ : 0 ≤ bounds.width)
    (hh₀ : 0 ≤ bounds.height) (hw : bounds.width < maxSide) (hh : bounds.height < maxSide) :
    Scaled size bounds (size.scale bounds true) := by
  have hwidth := hs.width_pos
  have hheight := hs.height_pos
  have hproduct₁ := intValue_mul hwidth.le hs.width_lt hh₀ hh
  have hproduct₂ := intValue_mul hheight.le hs.height_lt hw₀ hw
  rw [scale, if_pos rfl]
  split
  · rename_i hexceeds
    rw [hproduct₁, hproduct₂]
    split
    · rename_i hside
      obtain ⟨hle, hnonneg, hbound, hsize, hlow, hhigh⟩ :=
        scale_side hwidth hheight hw₀ hexceeds hside.le
      rw [Int.tdiv_eq_ediv_of_nonneg (mul_nonneg hheight.le hw₀)]
      exact ⟨hw₀, hnonneg, le_min hle le_rfl, le_min hsize hbound, .inr (.inl ⟨rfl, hlow, hhigh⟩)⟩
    · rename_i hside
      obtain ⟨hle, hnonneg, hbound, hsize, hlow, hhigh⟩ :=
        scale_side hheight hwidth hh₀ hexceeds.symm (not_lt.1 hside)
      rw [Int.tdiv_eq_ediv_of_nonneg (mul_nonneg hwidth.le hh₀)]
      exact ⟨hnonneg, hh₀, le_min hsize hbound, le_min hle le_rfl, .inr (.inr ⟨rfl, hlow, hhigh⟩)⟩
  · rename_i hexceeds
    have hle := not_or.1 hexceeds
    exact ⟨hwidth.le, hheight.le, le_min le_rfl (not_lt.1 hle.1), le_min le_rfl (not_lt.1 hle.2),
      .inl rfl⟩

/-- Either side of what `scale` gives, aligned, keeps the aspect ratio but for less than one step of
the alignment. -/
theorem Scaled.aspect {bounds scaled aligned : Size} (h : Scaled size bounds scaled)
    (hs : size.Small) {a : ℤ} (ha : 0 < a) (hdw : a ∣ bounds.width) (hdh : a ∣ bounds.height)
    (hw : aligned.width = scaled.width / a * a) (hh : aligned.height = scaled.height / a * a) :
    aligned.width * size.height < (aligned.height + a) * size.width ∧
      aligned.height * size.width < (aligned.width + a) * size.height := by
  have hwidth := hs.width_pos
  have hheight := hs.height_pos
  have hw_le : aligned.width ≤ scaled.width := hw ▸ Int.ediv_mul_le _ ha.ne'
  have hh_le : aligned.height ≤ scaled.height := hh ▸ Int.ediv_mul_le _ ha.ne'
  have hw_lt : scaled.width + 1 ≤ aligned.width + a := by
    have h := Int.lt_ediv_add_one_mul_self scaled.width ha
    rw [add_mul, one_mul, ← hw] at h
    exact h
  have hh_lt : scaled.height + 1 ≤ aligned.height + a := by
    have h := Int.lt_ediv_add_one_mul_self scaled.height ha
    rw [add_mul, one_mul, ← hh] at h
    exact h
  have hwh : aligned.width * size.height ≤ scaled.width * size.height :=
    mul_le_mul_of_nonneg_right hw_le hheight.le
  have hhw : aligned.height * size.width ≤ scaled.height * size.width :=
    mul_le_mul_of_nonneg_right hh_le hwidth.le
  have hwh' : (scaled.width + 1) * size.height ≤ (aligned.width + a) * size.height :=
    mul_le_mul_of_nonneg_right hw_lt hheight.le
  have hhw' : (scaled.height + 1) * size.width ≤ (aligned.height + a) * size.width :=
    mul_le_mul_of_nonneg_right hh_lt hwidth.le
  obtain hsame | ⟨hbound, hlow, hhigh⟩ | ⟨hbound, hlow, hhigh⟩ := h.tight
  · rw [hsame] at hwh hhw hwh' hhw'
    constructor <;> nlinarith
  · -- The width is the bound, which is a multiple.
    have hfixed : aligned.width = bounds.width := by
      rw [hw, hbound, Int.ediv_mul_cancel hdw]
    rw [hfixed, mul_comm bounds.width]
    constructor <;> nlinarith
  · have hfixed : aligned.height = bounds.height := by
      rw [hh, hbound, Int.ediv_mul_cancel hdh]
    rw [hfixed, mul_comm bounds.height]
    constructor <;> nlinarith

/-- The sides of the fit are multiples, and exceed neither the bounds nor the size. -/
structure Fits (size : Size) (constraints : VideoConstraints) (preserveAspectRatio : Bool) :
    Prop where
  /-- The width is a multiple. -/
  width_dvd : constraints.alignment ∣ (size.fit constraints preserveAspectRatio).width
  /-- The height is a multiple. -/
  height_dvd : constraints.alignment ∣ (size.fit constraints preserveAspectRatio).height
  /-- The width is not larger. -/
  width_le : (size.fit constraints preserveAspectRatio).width ≤
    min size.width (size.bounds constraints).width
  /-- The height is not larger. -/
  height_le : (size.fit constraints preserveAspectRatio).height ≤
    min size.height (size.bounds constraints).height
  /-- The aspect ratio is kept but for less than one step of the alignment. -/
  aspect : preserveAspectRatio = true →
    (size.fit constraints true).width * size.height <
        ((size.fit constraints true).height + constraints.alignment) * size.width ∧
      (size.fit constraints true).height * size.width <
        ((size.fit constraints true).width + constraints.alignment) * size.height

theorem fits (hs : size.Small) (hc : constraints.Valid) (preserveAspectRatio : Bool) :
    Fits size constraints preserveAspectRatio := by
  have hm : maxSide = 46341 := rfl
  have hwidth := hs.width_pos
  have hheight := hs.height_pos
  have hwlt := hs.width_lt
  have hhlt := hs.height_lt
  obtain ⟨hdw, hdh, hw₀, hh₀, hw, hh, -⟩ := bounds_spec hc size
  have hscaled := scale_spec hs hw₀ hh₀ hw hh
  -- Both ways of scaling stay within the size and the bounds.
  have hwithin : ∀ scaled, size.scale (size.bounds constraints) preserveAspectRatio = scaled →
      (0 ≤ scaled.width ∧ scaled.width ≤ min size.width (size.bounds constraints).width) ∧
        0 ≤ scaled.height ∧ scaled.height ≤ min size.height (size.bounds constraints).height := by
    rintro _ rfl
    cases preserveAspectRatio with
    | true =>
      exact ⟨⟨hscaled.width_nonneg, hscaled.width_le⟩, hscaled.height_nonneg, hscaled.height_le⟩
    | false =>
      rw [scale, if_neg Bool.false_ne_true]
      exact ⟨⟨le_min hwidth.le hw₀, le_rfl⟩, le_min hheight.le hh₀, le_rfl⟩
  obtain ⟨⟨hsw₀, hsw⟩, hsh₀, hsh⟩ := hwithin _ rfl
  obtain ⟨hweq, hwdvd, -, hwle, -⟩ := align_spec hsw₀ (by omega) hc.alignment_pos
  obtain ⟨hheq, hhdvd, -, hhle, -⟩ := align_spec hsh₀ (by omega) hc.alignment_pos
  refine ⟨hwdvd, hhdvd, hwle.trans hsw, hhle.trans hsh, fun hpreserve ↦ ?_⟩
  subst hpreserve
  exact hscaled.aspect hs hc.alignment_pos hdw hdh hweq hheq

/-- **The asserted.** The assertions of `constrain` hold. -/
theorem asserts (hs : size.Small) (hc : constraints.Valid) (preserveAspectRatio : Bool) :
    Asserts size constraints preserveAspectRatio := by
  have hfits := fits hs hc preserveAspectRatio
  obtain ⟨hmin, -, -⟩ := alignUp_spec hc.minCodecSize_nonneg hc.minCodecSize_lt hc.alignment_pos
    hc.alignment_lt
  refine ⟨hfits.width_le.trans (min_le_right _ _), hfits.height_le.trans (min_le_right _ _), ?_, ?_⟩
  · refine Int.emod_eq_zero_of_dvd ?_
    show constraints.alignment ∣ if _ then _ else _
    split
    · exact hmin
    · exact hfits.width_dvd
  · refine Int.emod_eq_zero_of_dvd ?_
    show constraints.alignment ∣ if _ then _ else _
    split
    · exact hmin
    · exact hfits.height_dvd

/-- A side of the result is that of the fit, or the smallest of the codec. -/
theorem constrain_eq (size : Size) (constraints : VideoConstraints) (preserveAspectRatio : Bool) :
    size.constrain constraints preserveAspectRatio =
      ⟨max (size.fit constraints preserveAspectRatio).width
        (alignUp constraints.minCodecSize constraints.alignment),
      max (size.fit constraints preserveAspectRatio).height
        (alignUp constraints.minCodecSize constraints.alignment)⟩ := by
  have hmax (a b : ℤ) : (if a < b then b else a) = max a b := by
    rw [max_def]
    split <;> split <;> omega
  rw [constrain]
  simp only [hmax]

/-- A requested maximum is exceeded only to reach the smallest side of the codec. -/
theorem getMax_constrain (hs : size.Small) (hc : constraints.Valid) (hmax : 0 < constraints.maxSize)
    (preserveAspectRatio : Bool) :
    (size.constrain constraints preserveAspectRatio).getMax ≤
      max constraints.maxSize (alignUp constraints.minCodecSize constraints.alignment) := by
  have hfits := fits hs hc preserveAspectRatio
  obtain ⟨-, -, -, -, -, -, hbounds⟩ := bounds_spec hc size
  obtain ⟨hbw, hbh⟩ := max_le_iff.1 (hbounds hmax)
  have hw := (hfits.width_le.trans (min_le_right _ _)).trans hbw
  have hh := (hfits.height_le.trans (min_le_right _ _)).trans hbh
  rw [constrain_eq]
  exact max_le (max_le_max hw le_rfl) (max_le_max hh le_rfl)

end Size

end AllRelay.Video
