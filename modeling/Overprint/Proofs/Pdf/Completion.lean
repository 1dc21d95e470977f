import Overprint.Proofs.Pdf.Registry

/-!
# What a press leaves in the document

An embedded font has a number from its first use, and its objects only in the end. Nothing is at that
number until then, so writing the fonts adds to the document and changes nothing in it; afterwards
every font and every picture on record is where its number says, and no new number is without an
object.
-/

namespace Overprint

open Drawing Pdf

theorem StandardFont.name_injective {first second : StandardFont}
    (heq : first.name = second.name) : first = second := by
  have hall : ∀ left ∈ all, ∀ right ∈ all, left.name = right.name → left = right := by decide
  exact hall first (mem_all first) second (mem_all second) heq

namespace Library.Provides

variable {library : Library}

theorem eq_of_key {first second : Font} (hfirst : library.Provides (.font first))
    (hsecond : library.Provides (.font second)) (hkey : first.key = second.key) :
    first = second := by
  have hkinds (name path : String) : "std:" ++ name ≠ "file:" ++ path := by
    intro heq
    have hletters := congrArg String.toList heq
    simp only [String.toList_append] at hletters
    cases hletters
  cases first with
  | standard first =>
    cases second with
    | standard second =>
      rw [StandardFont.name_injective (String.append_right_inj _ |>.1 hkey)]
    | embedded second => exact (hkinds _ _ hkey).elim
  | embedded first =>
    cases second with
    | standard second => exact (hkinds _ _ hkey.symm).elim
    | embedded second =>
      have hpath : first.path = second.path := String.append_right_inj _ |>.1 hkey
      have hfound : library.font first.path = .ok (.embedded first) := hfirst
      rw [hpath, hsecond] at hfound
      exact (Except.ok.inj hfound).symm

end Library.Provides

namespace Pdf

namespace Document

/-- An embedded font at a number as it is written for the glyphs that were used. -/
def Written (document : Document) (id : ObjectId) (font : EmbeddedFont) (uses : GlyphUses) : Prop :=
  ∃ program descriptor descendant map,
    document.objects.get? program = some (fontProgram font) ∧
    document.objects.get? descriptor = some (fontDescriptor font program) ∧
    document.objects.get? descendant = some (descendantFont font uses descriptor) ∧
    document.objects.get? map = some (.stream [] (unicodeMap uses)) ∧
    document.objects.get? id = some (compositeFont font descendant map)

/-- A font or picture at a number, with all that belongs to it. -/
def Holds (document : Document) (id : ObjectId) : Asset → Prop
  | .font (.standard font) =>
    ∃ entries : Dictionary, document.objects.get? id = some (.dictionary entries) ∧
      entries.IsStandardFont font
  | .font (.embedded font) => document.HasFont id font
  | .picture picture => document.HasPicture id picture

theorem Holds.ne_none {document : Document} {id : ObjectId} {asset : Asset}
    (hholds : document.Holds id asset) : document.objects.get? id ≠ none := by
  obtain ⟨object, hget⟩ : ∃ object, document.objects.get? id = some object := by
    cases asset with
    | font font =>
      cases font with
      | standard font =>
        obtain ⟨entries, hget, -⟩ := hholds
        exact ⟨_, hget⟩
      | embedded font =>
        obtain ⟨composite, _, _, _, _, _, _, _, _, hget, -⟩ := hholds
        exact ⟨_, hget⟩
    | picture picture =>
      obtain ⟨entries, data, hget, -⟩ := hholds
      exact ⟨_, hget⟩
  rw [hget]
  exact Option.some_ne_none object

theorem Written.hasFont {document : Document} {id : ObjectId} {font : EmbeddedFont}
    {uses : GlyphUses} (hwritten : document.Written id font uses) : document.HasFont id font := by
  obtain ⟨program, descriptor, descendant, map, hprogram, hdescriptor, hdescendant, hmap, hfont⟩ :=
    hwritten
  obtain ⟨composite, hcomposite, hfontEntries⟩ :=
    Dictionary.isCompositeFont_compositeFont font descendant map
  obtain ⟨below, hbelow, hbelowEntries⟩ :=
    Dictionary.isDescendantFont_descendantFont font uses descriptor
  obtain ⟨described, hdescribed, hdescribedEntries⟩ :=
    Dictionary.isFontDescriptor_fontDescriptor font program
  rw [hcomposite] at hfont
  rw [hbelow] at hdescendant
  rw [hdescribed] at hdescriptor
  exact ⟨composite, below, described, _, descendant, descriptor, program, map, _, hfont, hfontEntries,
    hdescendant, hbelowEntries, hdescriptor, hdescribedEntries, hasProgram_fontProgram hprogram, hmap⟩

/-- A document to which objects were added: at numbers that were kept for them, and at every new
number. -/
structure Supplements (document after : Document) : Prop where
  numbered : after.Numbered
  last : document.lastNumber ≤ after.lastNumber
  kept : ∀ id object, document.objects.get? id = some object →
    after.objects.get? id = some object
  filled : ∀ number, document.lastNumber < number → number ≤ after.lastNumber →
    after.objects.get? ⟨number, 0⟩ ≠ none

variable {document middle after : Document} {id : ObjectId}

namespace Supplements

theorem refl (hnumbered : document.Numbered) : document.Supplements document where
  numbered := hnumbered
  last := Nat.le_refl _
  kept _ _ hget := hget
  filled _ hlt hle := absurd hle (Nat.not_le_of_lt hlt)

theorem filled_of_filled (hsupplements : document.Supplements after)
    (hfilled : document.objects.get? id ≠ none) : after.objects.get? id ≠ none := by
  obtain ⟨object, hget⟩ := Option.ne_none_iff_exists'.1 hfilled
  rw [hsupplements.kept id object hget]
  exact Option.some_ne_none object

theorem trans (hfirst : document.Supplements middle) (hsecond : middle.Supplements after) :
    document.Supplements after where
  numbered := hsecond.numbered
  last := Nat.le_trans hfirst.last hsecond.last
  kept id object hget := hsecond.kept id object (hfirst.kept id object hget)
  filled number hlt hle := by
    by_cases hmiddle : number ≤ middle.lastNumber
    · exact hsecond.filled_of_filled (hfirst.filled number hlt hmiddle)
    · exact hsecond.filled number (Nat.lt_of_not_le hmiddle) hle

theorem add (hnumbered : document.Numbered) (object : Object) :
    document.Supplements (document.add object).2 where
  numbered := hnumbered.add object
  last := Nat.le_succ _
  kept id found hget := (get?_add_of_le (hnumbered id found hget) object).trans hget
  filled := ((Grows.refl hnumbered).add hnumbered object).filled

theorem put (hnumbered : document.Numbered) (hle : id.number ≤ document.lastNumber)
    (hfree : document.objects.get? id = none) (object : Object) :
    document.Supplements (document.put id object) where
  numbered := hnumbered.put hle object
  last := Nat.le_refl _
  kept other found hget := by
    have hne : other ≠ id := by
      rintro rfl
      rw [hfree] at hget
      cases hget
    rw [Document.put, SortedMap.get?_insert_of_ne hne, hget]
  filled _ hlt hle := absurd hle (Nat.not_le_of_lt hlt)

theorem written (hsupplements : document.Supplements after) {font : EmbeddedFont} {uses : GlyphUses}
    (hwritten : document.Written id font uses) : after.Written id font uses := by
  have hkept := hsupplements.kept
  obtain ⟨program, descriptor, descendant, map, hprogram, hdescriptor, hdescendant, hmap, hfont⟩ :=
    hwritten
  exact ⟨program, descriptor, descendant, map, hkept _ _ hprogram, hkept _ _ hdescriptor,
    hkept _ _ hdescendant, hkept _ _ hmap, hkept _ _ hfont⟩

end Supplements

/-- An embedded font is written at a number that was kept for it, and the other numbers in use are not
touched. -/
theorem embedFont_spec (hnumbered : document.Numbered) (hle : id.number ≤ document.lastNumber)
    (hfree : document.objects.get? id = none) (font : EmbeddedFont) (uses : GlyphUses) :
    document.Supplements (document.embedFont id font uses) ∧
      (document.embedFont id font uses).Written id font uses ∧
      ∀ other : ObjectId, other.number ≤ document.lastNumber → other ≠ id →
        (document.embedFont id font uses).objects.get? other = document.objects.get? other := by
  let programmed := document.add (fontProgram font)
  let described := programmed.2.add (fontDescriptor font programmed.1)
  let descended := described.2.add (descendantFont font uses described.1)
  let mapped := descended.2.add (.stream [] (unicodeMap uses))
  let final := mapped.2.put id (compositeFont font descended.1 mapped.1)
  have hprogrammed : programmed.2.Numbered := hnumbered.add _
  have hdescribed : described.2.Numbered := hprogrammed.add _
  have hdescended : descended.2.Numbered := hdescribed.add _
  have hmapped : mapped.2.Numbered := hdescended.add _
  have hlater {number : Nat} (hnumber : number ≤ document.lastNumber) (count : Nat) :
      number ≤ document.lastNumber + count := Nat.le_add_right_of_le hnumber
  have hold {other : ObjectId} (hother : other.number ≤ document.lastNumber) :
      mapped.2.objects.get? other = document.objects.get? other := by
    calc
      _ = descended.2.objects.get? other := get?_add_of_le (hlater hother 3) _
      _ = described.2.objects.get? other := get?_add_of_le (hlater hother 2) _
      _ = programmed.2.objects.get? other := get?_add_of_le (hlater hother 1) _
      _ = document.objects.get? other := get?_add_of_le hother _
  -- From the last addition back: what is there after one of them is there in the end.
  have hput : mapped.2.Supplements final :=
    .put hmapped (hlater hle 4) ((hold hle).trans hfree) _
  have hmap := (Supplements.add hdescended _).trans hput
  have hdescendant := (Supplements.add hdescribed _).trans hmap
  have hdescriptor := (Supplements.add hprogrammed _).trans hdescendant
  have hprogram := (Supplements.add hnumbered _).trans hdescriptor
  refine ⟨hprogram, ⟨programmed.1, described.1, descended.1, mapped.1, ?_, ?_, ?_, ?_, ?_⟩,
    fun other hother hne => ?_⟩
  · exact hdescriptor.kept _ _ (get?_add _ _)
  · exact hdescendant.kept _ _ (get?_add _ _)
  · exact hmap.kept _ _ (get?_add _ _)
  · exact hput.kept _ _ (get?_add _ _)
  · exact SortedMap.get?_insert_self ..
  · exact (SortedMap.get?_insert_of_ne hne).trans (hold hother)

/-- The document with a font on record, which is written unless it is there from the start. -/
def embed (document : Document) (entry : FontEntry) : Document :=
  match entry.font with
  | .standard _ => document
  | .embedded font => document.embedFont entry.id font entry.uses

theorem embed_spec (hnumbered : document.Numbered) {entry : FontEntry}
    (hle : entry.id.number ≤ document.lastNumber)
    (hfree : ∀ font, entry.font = .embedded font → document.objects.get? entry.id = none) :
    document.Supplements (document.embed entry) ∧
      (∀ font, entry.font = .embedded font →
        (document.embed entry).Written entry.id font entry.uses) ∧
      ∀ other : ObjectId, other.number ≤ document.lastNumber → other ≠ entry.id →
        (document.embed entry).objects.get? other = document.objects.get? other := by
  obtain ⟨name, id, font, uses⟩ := entry
  cases font with
  | standard font =>
    refine ⟨.refl hnumbered, fun other heq => ?_, fun _ _ _ => rfl⟩
    cases heq
  | embedded font =>
    obtain ⟨hsupplements, hwritten, hothers⟩ :=
      embedFont_spec hnumbered hle (hfree font rfl) font uses
    refine ⟨hsupplements, fun other heq => ?_, hothers⟩
    cases heq
    exact hwritten

theorem foldl_embed_written {entries : List FontEntry} (hnumbered : document.Numbered)
    (hdistinct : entries.Pairwise fun left right => left.id ≠ right.id)
    (hentries : ∀ entry ∈ entries, entry.id.number ≤ document.lastNumber ∧
      ∀ font, entry.font = .embedded font → document.objects.get? entry.id = none) :
    document.Supplements (entries.foldl embed document) ∧
      ∀ entry ∈ entries, ∀ font, entry.font = .embedded font →
        (entries.foldl embed document).Written entry.id font entry.uses := by
  induction entries generalizing document with
  | nil => exact ⟨.refl hnumbered, fun _ hmem => absurd hmem List.not_mem_nil⟩
  | cons first rest ih =>
    obtain ⟨hfirst, hrest⟩ := List.pairwise_cons.1 hdistinct
    obtain ⟨hle, hfree⟩ := hentries first List.mem_cons_self
    obtain ⟨hsupplements, hwritten, hothers⟩ := embed_spec hnumbered hle hfree
    have hwaiting : ∀ entry ∈ rest, entry.id.number ≤ (document.embed first).lastNumber ∧
        ∀ font, entry.font = .embedded font →
          (document.embed first).objects.get? entry.id = none := by
      intro entry hmem
      obtain ⟨hentry, hnone⟩ := hentries entry (List.mem_cons_of_mem first hmem)
      refine ⟨Nat.le_trans hentry hsupplements.last, fun font hfont => ?_⟩
      rw [hothers entry.id hentry (hfirst entry hmem).symm, hnone font hfont]
    obtain ⟨hlater, hall⟩ := ih hsupplements.numbered hrest hwaiting
    refine ⟨hsupplements.trans hlater, fun entry hmem font hfont => ?_⟩
    rcases List.mem_cons.1 hmem with rfl | hmem
    · exact hlater.written (hwritten font hfont)
    · exact hall entry hmem font hfont

/-- Fonts that were put in early are in the document after the others were written. -/
theorem foldl_embed_spec {entries : List FontEntry} (hnumbered : document.Numbered)
    (hdistinct : entries.Pairwise fun left right => left.id ≠ right.id)
    (hentries : ∀ entry ∈ entries, entry.id.number ≤ document.lastNumber ∧
      document.objects.get? entry.id = earlyObject entry.font) :
    document.Supplements (entries.foldl embed document) ∧
      ∀ entry ∈ entries, (entries.foldl embed document).Holds entry.id (.font entry.font) := by
  obtain ⟨hsupplements, hwritten⟩ := foldl_embed_written hnumbered hdistinct fun entry hmem => by
    obtain ⟨hle, hobject⟩ := hentries entry hmem
    refine ⟨hle, fun font hfont => ?_⟩
    rw [hobject, hfont]
    rfl
  refine ⟨hsupplements, fun entry hmem => ?_⟩
  have hobject := (hentries entry hmem).2
  cases hfont : entry.font with
  | standard font =>
    rw [hfont] at hobject
    exact ⟨_, hsupplements.kept entry.id _ hobject, Dictionary.isStandardFont_standardFont font⟩
  | embedded font => exact (hwritten entry hmem font hfont).hasFont

end Document

namespace Press

theorem finish_eq (press : Press) :
    press.finish = press.fonts.values.foldl Document.embed press.document := rfl

namespace Registered

variable {library : Library} {first : Nat} {press : Press}
  (hregistered : press.Registered library first)

include hregistered

theorem distinct_ids : press.fonts.values.Pairwise fun left right => left.id ≠ right.id := by
  refine List.pairwise_map.2 ?_
  refine List.Pairwise.imp_of_mem (fun {left right} hleft hright hne heq => ?_)
    (List.pairwise_map.1 press.fonts.nodup_keys)
  exact hne (hregistered.fonts.ids left.1 left.2 (SortedMap.get?_of_mem hleft) right.1 right.2
    (SortedMap.get?_of_mem hright) heq)

/-- What finishing adds to a document, and what is there then for the fonts on record. -/
theorem finish_spec : press.document.Supplements press.finish ∧
    ∀ key entry, press.fonts.get? key = some entry →
      press.finish.Holds entry.id (.font entry.font) := by
  have hentries : ∀ entry ∈ press.fonts.values,
      entry.id.number ≤ press.document.lastNumber ∧
        press.document.objects.get? entry.id = earlyObject entry.font := by
    intro entry hmem
    obtain ⟨⟨key, _⟩, hentry, rfl⟩ := List.mem_map.1 hmem
    have hget := SortedMap.get?_of_mem hentry
    obtain ⟨-, -, hobject⟩ := hregistered.keys key _ hget
    exact ⟨(hregistered.fonts.range key _ hget).2, hobject⟩
  rw [finish_eq]
  obtain ⟨hsupplements, hholds⟩ :=
    Document.foldl_embed_spec hregistered.numbered hregistered.distinct_ids hentries
  exact ⟨hsupplements, fun key entry hget => hholds entry (SortedMap.mem_values_of_get? hget)⟩

/-- In the end every font and picture on record is at its number. -/
theorem holds_finish (hfaithful : library.Faithful) {asset : Asset} {name : String}
    {id : ObjectId} (hhas : press.Has asset name id) (hprovides : library.Provides asset) :
    press.finish.Holds id asset := by
  obtain ⟨hsupplements, hholds⟩ := hregistered.finish_spec
  cases asset with
  | font font =>
    obtain ⟨entry, hget, -, rfl⟩ := hhas
    obtain ⟨hkey, hentry, -⟩ := hregistered.keys _ _ hget
    rw [← hentry.eq_of_key hprovides hkey]
    exact hholds _ entry hget
  | picture picture =>
    obtain ⟨shown, hkey, hshown, hpicture⟩ := hregistered.shown _ _ hhas
    have hsame := hfaithful.same _ _ _ _ hshown hprovides hkey
    have hholds : press.document.HasPicture id picture := by
      rw [hsame]
      exact hpicture
    exact hholds.mono fun id entries data hget => hsupplements.kept id _ hget

theorem filled_finish {number : Nat} (hlt : first < number)
    (hle : number ≤ press.finish.lastNumber) : press.finish.objects.get? ⟨number, 0⟩ ≠ none := by
  obtain ⟨hsupplements, hholds⟩ := hregistered.finish_spec
  by_cases hold : number ≤ press.document.lastNumber
  · rcases hregistered.filled number hlt hold with hfilled | ⟨key, entry, hget, hid⟩
    · exact hsupplements.filled_of_filled hfilled
    · rw [← hid]
      exact (hholds key entry hget).ne_none
  · exact hsupplements.filled number (Nat.lt_of_not_le hold) hle

end Registered

end Press

end Pdf

end Overprint
