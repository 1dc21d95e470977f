import Overprint.Proofs.Pdf.UnicodeMap

/-!
# The glyphs that texts use

What is remembered of the glyphs of a font while texts are shown in it: of each glyph the first
character that it showed. The widths that are written are those of the glyphs on record.
-/

namespace Overprint

theorem EmbeddedFont.glyph_lt (font : EmbeddedFont) (c : Char) : font.glyph c < 0x10000 :=
  UInt16.toNat_lt _

namespace Pdf

variable (font : EmbeddedFont)

theorem words?_encode (text : String) :
    words? (font.encode text) = some (text.toList.map font.glyph) := by
  have hglyphs : ∀ glyph ∈ text.toList.map font.glyph, glyph < 0x10000 := by
    intro glyph hmem
    obtain ⟨c, -, rfl⟩ := List.mem_map.1 hmem
    exact font.glyph_lt c
  rw [EmbeddedFont.encode, ← words?_flatMap hglyphs, List.flatMap_map]

/-- What is remembered of a glyph after some characters: the first of them that it shows. -/
def firstUse (characters : List Char) (glyph : Nat) : Option GlyphUse :=
  (characters.find? (font.glyph · = glyph)).map (⟨·, font.width glyph⟩)

theorem get?_note (uses : GlyphUses) (text : String) (glyph : Nat) :
    (uses.note font text).get? glyph = (uses.get? glyph).or (firstUse font text.toList glyph) := by
  rw [GlyphUses.note]
  generalize text.toList = characters
  induction characters generalizing uses with
  | nil => exact (Option.or_none ..).symm
  | cons c rest ih =>
    rw [List.foldl_cons, ih, firstUse, firstUse, List.find?_cons]
    by_cases hglyph : font.glyph c = glyph
    · subst hglyph
      cases hget : uses.get? (font.glyph c) with
      | none => simp [SortedMap.contains, hget]
      | some use => simp [SortedMap.contains, hget]
    · have hother : (uses.insert (font.glyph c) ⟨c, font.width (font.glyph c)⟩).get? glyph =
          uses.get? glyph := SortedMap.get?_insert_of_ne (Ne.symm hglyph)
      simp only [hglyph, decide_false]
      split
      · rfl
      · rw [hother]

/-- The glyphs that were used by some texts, one after the other. -/
def usesOf (texts : List String) : GlyphUses :=
  texts.foldl (·.note font ·) ∅

theorem get?_foldl_note (uses : GlyphUses) (texts : List String) (glyph : Nat) :
    (texts.foldl (·.note font ·) uses).get? glyph =
      (uses.get? glyph).or (firstUse font (texts.flatMap String.toList) glyph) := by
  induction texts generalizing uses with
  | nil => exact (Option.or_none ..).symm
  | cons text rest ih =>
    rw [List.foldl_cons, ih, get?_note, Option.or_assoc, List.flatMap_cons]
    simp only [firstUse, List.find?_append, Option.map_or]

/-- A glyph is on record with a character if that is the first character it showed. -/
theorem mem_usesOf_iff {texts : List String} {glyph : Nat} {use : GlyphUse} :
    (glyph, use) ∈ (usesOf font texts).entries ↔
      firstUse font (texts.flatMap String.toList) glyph = some use := by
  have hget : (usesOf font texts).get? glyph = firstUse font (texts.flatMap String.toList) glyph :=
    get?_foldl_note font ∅ texts glyph
  rw [← hget]
  exact ⟨SortedMap.get?_of_mem, SortedMap.mem_of_get?⟩

/-- The glyphs and widths in an array of widths, in which each glyph stands before the widths of it and
of those that follow. -/
def readWidths? : List Object → Option (List (Int × Int))
  | [] => some []
  | .integer first :: .array widths :: rest => do
    let widths ← widths.mapM fun width =>
      match width with
      | .integer width => some width
      | _ => none
    let others ← readWidths? rest
    return widths.mapIdx (fun index width => (first + index, width)) ++ others
  | _ => none

theorem readWidths?_widthsOf (uses : GlyphUses) : readWidths? (widthsOf uses) =
    some (uses.entries.map fun entry => ((entry.1 : Int), (entry.2.width : Int))) := by
  rw [widthsOf]
  induction uses.entries with
  | nil => rfl
  | cons entry rest ih =>
    rw [List.flatMap_cons, List.cons_append, List.cons_append, List.nil_append, readWidths?, ih]
    simp

end Pdf

end Overprint
