import Overprint.Pdf.Fonts
import Overprint.Pdf.Pictures

/-!
# What stands for a font or a picture

In a document a standard font is a dictionary that names it. An embedded font is four more objects
below a composite font: the font proper, its descriptor, the program and the map of its glyphs. A
picture is an image, with a second image for its mask if it has one.
-/

namespace Overprint.Pdf

namespace Dictionary

structure IsStandardFont (entries : Dictionary) (font : StandardFont) : Prop where
  type : entries.get? "Type" = some (.name "Font")
  subtype : entries.get? "Subtype" = some (.name "Type1")
  base : entries.get? "BaseFont" = some (.name font.name)
  encoding : entries.get? "Encoding" =
    if font = .symbol ∨ font = .zapfDingbats then none else some (.name "WinAnsiEncoding")

structure IsCompositeFont (entries : Dictionary) (font : EmbeddedFont) (descendant map : ObjectId) :
    Prop where
  type : entries.get? "Type" = some (.name "Font")
  subtype : entries.get? "Subtype" = some (.name "Type0")
  base : entries.get? "BaseFont" = some (.name font.name)
  encoding : entries.get? "Encoding" = some (.name "Identity-H")
  descendants : entries.get? "DescendantFonts" = some (.array [.reference descendant])
  map : entries.get? "ToUnicode" = some (.reference map)

/-- The entries of the font below a composite font, of which the glyphs are those of its file. -/
structure IsDescendantFont (entries : Dictionary) (font : EmbeddedFont) (descriptor : ObjectId) :
    Prop where
  type : entries.get? "Type" = some (.name "Font")
  subtype : entries.get? "Subtype" =
    some (.name (if font.face.compact then "CIDFontType0" else "CIDFontType2"))
  base : entries.get? "BaseFont" = some (.name font.name)
  system : entries.get? "CIDSystemInfo" = some (.dictionary [("Registry", .text (ascii "Adobe")),
    ("Ordering", .text (ascii "Identity")), ("Supplement", .integer 0)])
  descriptor : entries.get? "FontDescriptor" = some (.reference descriptor)
  widths : ∃ widths, entries.get? "W" = some (.array widths)
  glyphs : entries.get? "CIDToGIDMap" = if font.face.compact then none else some (.name "Identity")

structure IsFontDescriptor (entries : Dictionary) (font : EmbeddedFont) (program : ObjectId) :
    Prop where
  type : entries.get? "Type" = some (.name "FontDescriptor")
  name : entries.get? "FontName" = some (.name font.name)
  flags : entries.get? "Flags" = some (.integer (if font.face.fixedPitch then 33 else 32))
  box : entries.get? "FontBBox" = some (.array (font.box.map .integer))
  angle : entries.get? "ItalicAngle" = some (.real (font.face.angle?.getD (.zero false)))
  ascent : entries.get? "Ascent" = some (.integer font.ascent)
  descent : entries.get? "Descent" = some (.integer font.descent)
  capHeight : entries.get? "CapHeight" = some (.integer font.capHeight)
  stem : entries.get? "StemV" = some (.integer 80)
  program : entries.get? (if font.face.compact then "FontFile3" else "FontFile2") =
    some (.reference program)

/-- The entries of an image of a size, with a byte for each colour of a pixel. -/
structure IsImage (entries : Dictionary) (width height : Nat) (space : String) : Prop where
  type : entries.get? "Type" = some (.name "XObject")
  subtype : entries.get? "Subtype" = some (.name "Image")
  width : entries.get? "Width" = some (.integer width)
  height : entries.get? "Height" = some (.integer height)
  space : entries.get? "ColorSpace" = some (.name space)
  depth : entries.get? "BitsPerComponent" = some (.integer 8)

theorem isStandardFont_standardFont (font : StandardFont) :
    (standardFont font).IsStandardFont font := by
  constructor <;> cases font <;> rfl

theorem isCompositeFont_compositeFont (font : EmbeddedFont) (descendant map : ObjectId) :
    ∃ entries : Dictionary, compositeFont font descendant map = .dictionary entries ∧
      entries.IsCompositeFont font descendant map :=
  ⟨_, rfl, ⟨rfl, rfl, rfl, rfl, rfl, rfl⟩⟩

theorem isDescendantFont_descendantFont (font : EmbeddedFont) (uses : GlyphUses)
    (descriptor : ObjectId) : ∃ entries : Dictionary,
      descendantFont font uses descriptor = .dictionary entries ∧
        entries.IsDescendantFont font descriptor := by
  refine ⟨_, rfl, ⟨rfl, rfl, rfl, rfl, rfl, ⟨_, rfl⟩, ?_⟩⟩
  cases font.face.compact <;> rfl

theorem isFontDescriptor_fontDescriptor (font : EmbeddedFont) (program : ObjectId) :
    ∃ entries : Dictionary, fontDescriptor font program = .dictionary entries ∧
      entries.IsFontDescriptor font program := by
  refine ⟨_, rfl, ⟨rfl, rfl, rfl, rfl, rfl, rfl, rfl, rfl, rfl, ?_⟩⟩
  cases font.face.compact <;> rfl

theorem isImage_pictureEntries {picture : Picture} {space : String} (more : Dictionary) :
    IsImage (pictureEntries picture space ++ more) picture.width picture.height space :=
  ⟨rfl, rfl, rfl, rfl, rfl, rfl⟩

end Dictionary

namespace Document

def HasProgram (document : Document) (id : ObjectId) (font : EmbeddedFont) : Prop :=
  ∃ entries : Dictionary, document.objects.get? id = some (.stream entries font.data.toList) ∧
    entries.get? "Subtype" = if font.face.compact then some (.name "OpenType") else none

/-- An embedded font at a number, with all that belongs to it. -/
def HasFont (document : Document) (id : ObjectId) (font : EmbeddedFont) : Prop :=
  ∃ (composite below described entries : Dictionary) (descendant descriptor program map : ObjectId)
    (data : List UInt8),
    document.objects.get? id = some (.dictionary composite) ∧
    composite.IsCompositeFont font descendant map ∧
    document.objects.get? descendant = some (.dictionary below) ∧
    below.IsDescendantFont font descriptor ∧
    document.objects.get? descriptor = some (.dictionary described) ∧
    described.IsFontDescriptor font program ∧
    document.HasProgram program font ∧
    document.objects.get? map = some (.stream entries data)

def HasMask (document : Document) (width height : Nat) (entries : Dictionary) :
    Option (List UInt8) → Prop
  | none => entries.get? "SMask" = none
  | some alpha => ∃ (mask : ObjectId) (others : Dictionary),
    entries.get? "SMask" = some (.reference mask) ∧
    document.objects.get? mask = some (.stream others alpha) ∧
    others.IsImage width height "DeviceGray" ∧ others.get? "SMask" = none ∧
    others.get? "Filter" = none

/-- A picture at a number: the bytes of a JPEG file, or samples. -/
def HasPicture (document : Document) (id : ObjectId) (picture : Picture) : Prop :=
  ∃ (entries : Dictionary) (data : List UInt8),
    document.objects.get? id = some (.stream entries data) ∧
    match picture.data with
    | .jpeg bytes grey => data = bytes ∧
      entries.IsImage picture.width picture.height (if grey then "DeviceGray" else "DeviceRGB") ∧
      entries.get? "SMask" = none ∧ entries.get? "Filter" = some (.name "DCTDecode")
    | .samples rgb alpha? => data = rgb ∧
      entries.IsImage picture.width picture.height "DeviceRGB" ∧
      document.HasMask picture.width picture.height entries alpha? ∧ entries.get? "Filter" = none

variable {before after : Document} {id : ObjectId} {picture : Picture}

theorem hasProgram_fontProgram {font : EmbeddedFont}
    (hget : after.objects.get? id = some (fontProgram font)) : after.HasProgram id font := by
  rw [fontProgram] at hget
  rw [HasProgram]
  split at hget
  next hcompact => exact ⟨_, hget, (if_pos hcompact).symm⟩
  next hcompact => exact ⟨_, hget, (if_neg hcompact).symm⟩

theorem HasMask.mono {width height : Nat} {entries : Dictionary} {alpha? : Option (List UInt8)}
    (hhas : before.HasMask width height entries alpha?)
    (hkept : ∀ id entries data, before.objects.get? id = some (.stream entries data) →
      after.objects.get? id = some (.stream entries data)) :
    after.HasMask width height entries alpha? := by
  cases alpha? with
  | none => exact hhas
  | some alpha =>
    obtain ⟨mask, others, hmask, hget, hplane⟩ := hhas
    exact ⟨mask, others, hmask, hkept _ _ _ hget, hplane⟩

theorem HasPicture.mono (hhas : before.HasPicture id picture)
    (hkept : ∀ id entries data, before.objects.get? id = some (.stream entries data) →
      after.objects.get? id = some (.stream entries data)) : after.HasPicture id picture := by
  obtain ⟨entries, data, hget, hdata⟩ := hhas
  refine ⟨entries, data, hkept _ _ _ hget, ?_⟩
  split at hdata
  · exact hdata
  · obtain ⟨hbytes, himage, hmask, hfilter⟩ := hdata
    exact ⟨hbytes, himage, hmask.mono hkept, hfilter⟩

end Document

end Overprint.Pdf
