import Overprint.Picture

/-!
# What the samples of a raster say of a pixel

Where the samples of a pixel stand follows from its number and the layout. What is read of a raster
from its start, pixel by pixel, is what stands there.
-/

namespace Overprint

namespace Layout

theorem narrowed_lt (high low : UInt8) : (high.toNat * 256 + low.toNat + 128) / 257 < 256 := by
  have hhigh := high.toNat_lt
  have hlow := low.toNat_lt
  omega

/-- The sample of sixteen bits at a place, the high byte first, in eight: `(x + 128) / 257` for `x`. -/
def wideSample? (data : List UInt8) (place : Nat) : Option UInt8 := do
  let high ← data[2 * place]?
  let low ← data[2 * place + 1]?
  return .ofNatLT _ (narrowed_lt high low)

def sample? (layout : Layout) (data : List UInt8) (place : Nat) : Option UInt8 :=
  if layout.wide then wideSample? data place else data[place]?

/-- The pixel of some number: a level of grey or one for each colour, and one for transparency. -/
def pixel? (layout : Layout) (sample? : Nat → Option UInt8) (number : Nat) : Option Pixel := do
  let first := layout.channels * number
  let red ← sample? first
  let green ← (if layout.colored then sample? (first + 1) else some red)
  let blue ← (if layout.colored then sample? (first + 2) else some red)
  let alpha ← (if layout.transparent then sample? (first + (layout.channels - 1)) else some 255)
  return ⟨red, green, blue, alpha⟩

theorem getElem?_narrow (data : List UInt8) (place : Nat) :
    (narrow data)[place]? = wideSample? data place := by
  fun_induction narrow data generalizing place with
  | case1 high low rest ih =>
    cases place with
    | zero => exact congrArg some (UInt8.ofNatLT_eq_ofNat _).symm
    | succ place => exact ih place
  | case2 data hshort =>
    rcases data with _ | ⟨high, _ | ⟨low, rest⟩⟩
    · rfl
    · simp [wideSample?]
    · exact (hshort high low rest rfl).elim

section Grouping

variable (samples : List UInt8) (number : Nat) (wide : Bool)

theorem getElem?_greyPixels :
    (greyPixels samples)[number]? = pixel? ⟨false, false, wide⟩ (samples[·]?) number := by
  fun_induction greyPixels samples generalizing number with
  | case1 level rest ih =>
    cases number with
    | zero => rfl
    | succ number => exact ih number
  | case2 => rfl

theorem getElem?_greyAlphaPixels :
    (greyAlphaPixels samples)[number]? = pixel? ⟨false, true, wide⟩ (samples[·]?) number := by
  fun_induction greyAlphaPixels samples generalizing number with
  | case1 level alpha rest ih =>
    cases number with
    | zero => rfl
    | succ number => exact ih number
  | case2 samples hshort =>
    rcases samples with _ | ⟨level, _ | ⟨alpha, rest⟩⟩
    · rfl
    · simp [pixel?, channels]
    · exact (hshort level alpha rest rfl).elim

theorem getElem?_colorPixels :
    (colorPixels samples)[number]? = pixel? ⟨true, false, wide⟩ (samples[·]?) number := by
  fun_induction colorPixels samples generalizing number with
  | case1 red green blue rest ih =>
    cases number with
    | zero => rfl
    | succ number => exact ih number
  | case2 samples hshort =>
    rcases samples with _ | ⟨red, _ | ⟨green, _ | ⟨blue, rest⟩⟩⟩
    · rfl
    · simp [pixel?, channels]
    · simp [pixel?, channels]
    · exact (hshort red green blue rest rfl).elim

theorem getElem?_colorAlphaPixels :
    (colorAlphaPixels samples)[number]? = pixel? ⟨true, true, wide⟩ (samples[·]?) number := by
  fun_induction colorAlphaPixels samples generalizing number with
  | case1 red green blue alpha rest ih =>
    cases number with
    | zero => rfl
    | succ number => exact ih number
  | case2 samples hshort =>
    rcases samples with _ | ⟨red, _ | ⟨green, _ | ⟨blue, _ | ⟨alpha, rest⟩⟩⟩⟩
    · rfl
    · simp [pixel?, channels]
    · simp [pixel?, channels]
    · simp [pixel?, channels]
    · exact (hshort red green blue alpha rest rfl).elim

end Grouping

/-- The pixels that are read one after the other are those at their places. -/
theorem getElem?_pixels (layout : Layout) (data : List UInt8) (number : Nat) :
    (layout.pixels data)[number]? = layout.pixel? (layout.sample? data) number := by
  obtain ⟨colored, transparent, wide⟩ := layout
  have hsample : (sample? ⟨colored, transparent, wide⟩ data) =
      ((if wide then narrow data else data)[·]?) := by
    funext place
    cases wide with
    | false => rfl
    | true => exact (getElem?_narrow data place).symm
  rw [hsample]
  cases colored <;> cases transparent
  · exact getElem?_greyPixels ..
  · exact getElem?_greyAlphaPixels ..
  · exact getElem?_colorPixels ..
  · exact getElem?_colorAlphaPixels ..

section Counting

variable {layout : Layout} {sample? : Nat → Option UInt8} {count number : Nat}

theorem isSome_sample? (layout : Layout) (data : List UInt8) (place : Nat) :
    (layout.sample? data place).isSome ↔
      place < data.length / (if layout.wide then 2 else 1) := by
  rw [Layout.sample?]
  split
  · by_cases hlt : 2 * place + 1 < data.length
    · have hhigh : data[2 * place]? = some data[2 * place] := List.getElem?_eq_getElem _
      have hlow : data[2 * place + 1]? = some data[2 * place + 1] := List.getElem?_eq_getElem _
      simp only [wideSample?, hhigh, hlow, Option.bind_eq_bind, Option.bind_some, Option.pure_def,
        Option.isSome_some, true_iff]
      omega
    · have hlow : data[2 * place + 1]? = none := List.getElem?_eq_none (Nat.le_of_not_lt hlt)
      have hnone : wideSample? data place = none := by simp [wideSample?, hlow]
      simp only [hnone, Option.isSome_none, Bool.false_eq_true, false_iff]
      omega
  · simp

theorem one_le_channels (layout : Layout) : 1 ≤ layout.channels := by
  rw [channels]
  split <;> omega

theorem isSome_pixel? (hcount : ∀ place, (sample? place).isSome ↔ place < layout.channels * count) :
    (layout.pixel? sample? number).isSome ↔ number < count := by
  constructor
  · intro hpixel
    obtain ⟨pixel, hpixel⟩ := Option.isSome_iff_exists.1 hpixel
    obtain ⟨red, hred, -⟩ := Option.bind_eq_some_iff.1 hpixel
    exact Nat.lt_of_mul_lt_mul_left ((hcount _).1 (Option.isSome_of_eq_some hred))
  · intro hlt
    have hsome (channel : Nat) (hchannel : channel < layout.channels) :
        ∃ sample, sample? (layout.channels * number + channel) = some sample := by
      refine Option.isSome_iff_exists.1 ((hcount _).2 ?_)
      have hnext := Nat.mul_le_mul_left layout.channels (Nat.succ_le_of_lt hlt)
      rw [Nat.mul_succ] at hnext
      omega
    obtain ⟨red, hred⟩ := hsome 0 layout.one_le_channels
    obtain ⟨colored, transparent, wide⟩ := layout
    cases colored <;> cases transparent
    · simp_all [pixel?, channels]
    · obtain ⟨alpha, halpha⟩ := hsome 1 (by simp [channels])
      simp_all [pixel?, channels]
    · obtain ⟨green, hgreen⟩ := hsome 1 (by simp [channels])
      obtain ⟨blue, hblue⟩ := hsome 2 (by simp [channels])
      simp_all [pixel?, channels]
    · obtain ⟨green, hgreen⟩ := hsome 1 (by simp [channels])
      obtain ⟨blue, hblue⟩ := hsome 2 (by simp [channels])
      obtain ⟨alpha, halpha⟩ := hsome 3 (by simp [channels])
      simp_all [pixel?, channels]

end Counting

end Layout

namespace Raster

variable (raster : Raster)

def IsFilled : Prop :=
  raster.samples.length = raster.width * raster.height * raster.layout.bytesPerPixel

/-- The pixel of some number, counted in rows from the top. -/
def pixel? (number : Nat) : Option Pixel :=
  raster.layout.pixel? (raster.layout.sample? raster.samples) number

theorem getElem?_pixels (number : Nat) : raster.pixels[number]? = raster.pixel? number :=
  raster.layout.getElem?_pixels raster.samples number

variable {raster}

theorem IsFilled.isSome_pixel? (hfilled : raster.IsFilled) {number : Nat} :
    (raster.pixel? number).isSome ↔ number < raster.width * raster.height := by
  refine Layout.isSome_pixel? fun place => ?_
  have hpos : 0 < if raster.layout.wide then 2 else 1 := by
    split <;> decide
  rw [Layout.isSome_sample?, hfilled, Layout.bytesPerPixel, ← Nat.mul_assoc,
    Nat.mul_div_cancel _ hpos, Nat.mul_comm]

theorem IsFilled.length_pixels (hfilled : raster.IsFilled) :
    raster.pixels.length = raster.width * raster.height := by
  have hsame (number : Nat) :
      number < raster.pixels.length ↔ number < raster.width * raster.height := by
    rw [← hfilled.isSome_pixel?, ← getElem?_pixels]
    simp
  exact Nat.le_antisymm (Nat.le_of_not_lt fun hlt => Nat.lt_irrefl _ ((hsame _).1 hlt))
    (Nat.le_of_not_lt fun hlt => Nat.lt_irrefl _ ((hsame _).2 hlt))

theorem alpha_of_mem_pixels (htransparent : raster.layout.transparent = false) {pixel : Pixel}
    (hmem : pixel ∈ raster.pixels) : pixel.alpha = 255 := by
  obtain ⟨number, hnumber⟩ := List.mem_iff_getElem?.1 hmem
  rw [getElem?_pixels, pixel?, Layout.pixel?] at hnumber
  obtain ⟨red, -, hnumber⟩ := Option.bind_eq_some_iff.1 hnumber
  obtain ⟨green, -, hnumber⟩ := Option.bind_eq_some_iff.1 hnumber
  obtain ⟨blue, -, hnumber⟩ := Option.bind_eq_some_iff.1 hnumber
  obtain ⟨alpha, halpha, hnumber⟩ := Option.bind_eq_some_iff.1 hnumber
  rw [htransparent] at halpha
  cases halpha
  cases hnumber
  rfl

end Raster

section Planes

/-! A picture keeps the colours of its pixels in one list and how they cover in another. -/

variable (pixels : List Pixel)

theorem length_flatMap_colors : (pixels.flatMap Pixel.colors).length = 3 * pixels.length := by
  induction pixels with
  | nil => rfl
  | cons pixel rest ih =>
    rw [List.flatMap_cons, List.length_append, ih, List.length_cons, Nat.mul_succ, Nat.add_comm]
    rfl

theorem getElem?_flatMap_colors (number channel : Nat) (hlt : channel < 3) :
    (pixels.flatMap Pixel.colors)[3 * number + channel]? =
      pixels[number]?.bind fun pixel => pixel.colors[channel]? := by
  induction pixels generalizing number with
  | nil => rfl
  | cons pixel rest ih =>
    rw [List.flatMap_cons]
    cases number with
    | zero =>
      rw [Nat.mul_zero, Nat.zero_add]
      exact List.getElem?_append_left hlt
    | succ number =>
      have hnext : 3 * (number + 1) + channel = pixel.colors.length + (3 * number + channel) := by
        rw [show pixel.colors.length = 3 from rfl]
        omega
      rw [hnext, List.getElem?_append_right (Nat.le_add_right _ _), Nat.add_sub_cancel_left, ih]
      rfl

end Planes

namespace Raster

variable {raster : Raster}

def cover? (raster : Raster) : Option (List UInt8) :=
  if raster.layout.transparent then Picture.alphaPlane? raster.pixels else none

theorem cover?_eq_none_iff :
    raster.cover? = none ↔ ∀ pixel ∈ raster.pixels, pixel.alpha = 255 := by
  rw [cover?]
  split
  · simp [Picture.alphaPlane?]
  next htransparent =>
    exact ⟨fun _ pixel => alpha_of_mem_pixels (Bool.eq_false_iff.2 htransparent), fun _ => rfl⟩

theorem cover?_eq_some {plane : List UInt8} (hcover : raster.cover? = some plane) :
    plane = raster.pixels.map Pixel.alpha := by
  rw [cover?] at hcover
  split at hcover
  · rw [Picture.alphaPlane?] at hcover
    split at hcover
    · cases hcover
    · exact (Option.some.inj hcover).symm
  · cases hcover

/-- A picture covers everything with all of its pixels unless one of them is not opaque. -/
theorem IsFilled.cover?_ne_none_iff (hfilled : raster.IsFilled) :
    raster.cover? ≠ none ↔ ∃ number < raster.width * raster.height, ∃ pixel,
      raster.pixel? number = some pixel ∧ pixel.alpha < 255 := by
  rw [ne_eq, cover?_eq_none_iff]
  constructor
  · intro hsome
    obtain ⟨pixel, hsome⟩ := Classical.not_forall.1 hsome
    obtain ⟨hmem, halpha⟩ := Classical.not_imp.1 hsome
    obtain ⟨number, hnumber⟩ := List.mem_iff_getElem?.1 hmem
    rw [raster.getElem?_pixels] at hnumber
    refine ⟨number, hfilled.isSome_pixel?.1 (Option.isSome_of_eq_some hnumber), pixel, hnumber, ?_⟩
    have hlt := pixel.alpha.toNat_lt
    have hne : pixel.alpha.toNat ≠ 255 := fun heq => halpha (UInt8.toNat_inj.1 heq)
    exact UInt8.lt_iff_toNat_lt.2 (show pixel.alpha.toNat < 255 by omega)
  · rintro ⟨number, -, pixel, hnumber, halpha⟩ hfull
    rw [← raster.getElem?_pixels] at hnumber
    rw [hfull pixel (List.mem_of_getElem? hnumber)] at halpha
    exact absurd halpha (by decide)

/-- How the pixel of some number covers, by a plane for all of them. -/
def coverByte? (cover? : Option (List UInt8)) (number : Nat) : Option UInt8 :=
  match cover? with
  | none => some 255
  | some plane => plane[number]?

theorem coverByte?_eq {number : Nat} {pixel : Pixel} (hpixel : raster.pixels[number]? = some pixel) :
    coverByte? raster.cover? number = some pixel.alpha := by
  cases hcover : raster.cover? with
  | none => rw [coverByte?, cover?_eq_none_iff.1 hcover pixel (List.mem_of_getElem? hpixel)]
  | some plane => rw [coverByte?, cover?_eq_some hcover, List.getElem?_map, hpixel, Option.map_some]

end Raster

end Overprint
