import Overprint.Proofs.Pdf.Registry
import Overprint.Proofs.Picture.Samples

/-!
# Pictures are embedded without loss

A raster in a document is a stream of three bytes for each pixel, with another stream of one byte for
each if the picture is not opaque everywhere. Put together again by their places, the bytes are the
pixels of the raster.
-/

namespace Overprint

namespace Pdf.Document

/-- An image of a size at a number, with its entries and so many bytes for each pixel. -/
structure HasImage (document : Document) (id : ObjectId) (width height bytesPerPixel : Nat)
    (colors : String) (entries : Dictionary) (data : List UInt8) : Prop where
  stream : document.objects.get? id = some (.stream entries data)
  across : entries.get? "Width" = some (.integer width)
  down : entries.get? "Height" = some (.integer height)
  space : entries.get? "ColorSpace" = some (.name colors)
  depth : entries.get? "BitsPerComponent" = some (.integer 8)
  length : data.length = bytesPerPixel * (width * height)

/-- What an image covers with its pixel of some number: a byte of its mask, or all of it without a
mask. -/
def maskByte? (document : Document) (entries : Dictionary) (number : Nat) : Option UInt8 :=
  match entries.get? "SMask" with
  | none => some 255
  | some mask =>
    match document.target? mask with
    | some (.stream _ plane) => plane[number]?
    | _ => none

/-- The pixel of some number that an image shows: three bytes of its data and the byte of its mask. -/
def imagePixel? (document : Document) (id : ObjectId) (number : Nat) : Option Pixel :=
  match document.objects.get? id with
  | some (.stream entries data) => do
    return {
      red := ← data[3 * number]?
      green := ← data[3 * number + 1]?
      blue := ← data[3 * number + 2]?
      alpha := ← document.maskByte? entries number }
  | _ => none

variable {document : Document} {id : ObjectId} {picture : Picture} {entries : Dictionary}
  {pixels : List Pixel} {pixel : Pixel} {number : Nat}

theorem HasImage.of_isImage {data : List UInt8} {width height bytesPerPixel : Nat} {colors : String}
    (hget : document.objects.get? id = some (.stream entries data))
    (himage : entries.IsImage width height colors)
    (hlength : data.length = bytesPerPixel * (width * height)) :
    document.HasImage id width height bytesPerPixel colors entries data :=
  ⟨hget, himage.width, himage.height, himage.space, himage.depth, hlength⟩

theorem HasPicture.exists_samples {rgb : List UInt8} {cover? : Option (List UInt8)}
    (hdata : picture.data = .samples rgb cover?) (hhas : document.HasPicture id picture) :
    ∃ entries : Dictionary, document.objects.get? id = some (.stream entries rgb) ∧
      entries.IsImage picture.width picture.height "DeviceRGB" ∧
      document.HasMask picture.width picture.height entries cover? := by
  obtain ⟨entries, data, hget, hshown⟩ := hhas
  rw [hdata] at hshown
  obtain ⟨rfl, himage, hmask, -⟩ := hshown
  exact ⟨entries, hget, himage, hmask⟩

namespace HasMask

variable {width height : Nat} {cover? : Option (List UInt8)}
  (hcover : document.HasMask width height entries cover?)

include hcover

theorem mask_ne_none_iff : entries.get? "SMask" ≠ none ↔ cover? ≠ none := by
  cases cover? with
  | none => exact ⟨absurd hcover, absurd rfl⟩
  | some plane =>
    obtain ⟨place, others, hmask, -⟩ := hcover
    simp [hmask]

theorem exists_plane {mask : Object} (hmask : entries.get? "SMask" = some mask) :
    ∃ (place : ObjectId) (others : Dictionary) (plane : List UInt8), mask = .reference place ∧
      cover? = some plane ∧ document.objects.get? place = some (.stream others plane) ∧
      others.IsImage width height "DeviceGray" := by
  cases cover? with
  | none =>
    have hnone : entries.get? "SMask" = none := hcover
    rw [hnone] at hmask
    cases hmask
  | some plane =>
    obtain ⟨place, others, hplace, hplane, himage, -⟩ := hcover
    rw [hplace] at hmask
    cases hmask
    exact ⟨place, others, plane, rfl, rfl, hplane, himage⟩

theorem maskByte?_eq (number : Nat) :
    document.maskByte? entries number = Raster.coverByte? cover? number := by
  rw [maskByte?]
  cases cover? with
  | none =>
    have hnone : entries.get? "SMask" = none := hcover
    rw [hnone]
    rfl
  | some plane =>
    obtain ⟨place, others, hmask, hplane, -⟩ := hcover
    have htarget : document.target? (.reference place) = some (.stream others plane) := by
      rw [target?, referenceLimit, follow_reference hplane, follow_of_not_reference _ _ rfl]
    simp only [hmask, htarget]
    rfl

end HasMask

/-- The colours are where they were put, and so are the pixels if the mask is right. -/
theorem imagePixel?_eq_some
    (hget : document.objects.get? id = some (.stream entries (pixels.flatMap Pixel.colors)))
    (hpixel : pixels[number]? = some pixel)
    (hmask : document.maskByte? entries number = some pixel.alpha) :
    document.imagePixel? id number = some pixel := by
  have hbyte (channel : Nat) (hlt : channel < 3) :
      (pixels.flatMap Pixel.colors)[3 * number + channel]? = pixel.colors[channel]? := by
    rw [getElem?_flatMap_colors pixels number channel hlt, hpixel, Option.bind_some]
  have hred := hbyte 0 (by decide)
  have hgreen := hbyte 1 (by decide)
  have hblue := hbyte 2 (by decide)
  rw [Nat.add_zero] at hred
  rw [imagePixel?, hget]
  dsimp only
  rw [hred, hgreen, hblue, hmask]
  rfl

end Pdf.Document

open Pdf Document

/-- Whatever the layout and the size of a raster, what is embedded of it has the size that it says, has
a mask of the same size if and only if some pixel is not opaque, and shows every pixel as it is. -/
theorem raster_embedded_without_loss (document : Document) (path : String) {raster : Raster}
    (hfilled : raster.IsFilled) :
    let id := (document.addPicture (.ofRaster path raster)).1
    let after := (document.addPicture (.ofRaster path raster)).2
    ∃ entries data,
      after.HasImage id raster.width raster.height 3 "DeviceRGB" entries data ∧
      (entries.get? "SMask" ≠ none ↔ ∃ number < raster.width * raster.height, ∃ pixel,
        raster.pixel? number = some pixel ∧ pixel.alpha < 255) ∧
      (∀ mask, entries.get? "SMask" = some mask → ∃ place others plane, mask = .reference place ∧
        after.HasImage place raster.width raster.height 1 "DeviceGray" others plane) ∧
      ∀ number < raster.width * raster.height, ∃ pixel, raster.pixel? number = some pixel ∧
        after.imagePixel? id number = some pixel := by
  intro id after
  let picture := Picture.ofRaster path raster
  have hdata : picture.data = .samples (raster.pixels.flatMap Pixel.colors) raster.cover? := rfl
  obtain ⟨entries, hget, himage, hcover⟩ :=
    (hasPicture_addPicture document picture).exists_samples hdata
  have hlength : (raster.pixels.flatMap Pixel.colors).length =
      3 * (raster.width * raster.height) := by
    rw [length_flatMap_colors, hfilled.length_pixels]
  refine ⟨entries, _, .of_isImage hget himage hlength, ?_, fun mask hmask => ?_,
    fun number hlt => ?_⟩
  · rw [hcover.mask_ne_none_iff, hfilled.cover?_ne_none_iff]
  · obtain ⟨place, others, plane, rfl, hplane, hget, hothers⟩ := hcover.exists_plane hmask
    refine ⟨place, others, plane, rfl, .of_isImage hget hothers ?_⟩
    rw [Raster.cover?_eq_some hplane, List.length_map, hfilled.length_pixels, Nat.one_mul]
  · obtain ⟨pixel, hpixel⟩ := Option.isSome_iff_exists.1 (hfilled.isSome_pixel?.2 hlt)
    have hnumber := (raster.getElem?_pixels number).trans hpixel
    refine ⟨pixel, hpixel, imagePixel?_eq_some hget hnumber ?_⟩
    rw [hcover.maskByte?_eq, Raster.coverByte?_eq hnumber]

/-- Two levels of grey in sixteen bits, of which the second does not cover anything. -/
theorem raster_embedded_without_loss_of_wide_grey :
    let raster : Raster := {
      layout := { colored := false, transparent := true, wide := true }
      width := 2
      height := 1
      samples := [0x80, 0x00, 0xff, 0xff, 0x12, 0x34, 0x00, 0x7f] }
    let id := ((Document.ofObjects [] []).addPicture (.ofRaster "grey.pam" raster)).1
    let after := ((Document.ofObjects [] []).addPicture (.ofRaster "grey.pam" raster)).2
    raster.IsFilled ∧ ∃ entries data,
      after.HasImage id 2 1 3 "DeviceRGB" entries data ∧ entries.get? "SMask" ≠ none ∧
      after.imagePixel? id 0 = some ⟨128, 128, 128, 255⟩ ∧
      after.imagePixel? id 1 = some ⟨18, 18, 18, 0⟩ := by
  intro raster id after
  have hfilled : raster.IsFilled := rfl
  obtain ⟨entries, data, himage, hmask, -, hpixels⟩ :=
    raster_embedded_without_loss (.ofObjects [] []) "grey.pam" hfilled
  have hfirst : raster.pixel? 0 = some ⟨128, 128, 128, 255⟩ := by decide
  have hsecond : raster.pixel? 1 = some ⟨18, 18, 18, 0⟩ := by decide
  have hshown {number : Nat} (hlt : number < 2) {pixel : Pixel}
      (hpixel : raster.pixel? number = some pixel) : after.imagePixel? id number = some pixel := by
    obtain ⟨other, hother, hshown⟩ := hpixels number hlt
    rw [hpixel] at hother
    cases hother
    exact hshown
  exact ⟨hfilled, entries, data, himage, hmask.2 ⟨1, by decide, _, hsecond, by decide⟩,
    hshown (by decide) hfirst, hshown (by decide) hsecond⟩

end Overprint
