import Overprint.Proofs.Drawing.Provenance
import Overprint.Proofs.Pdf.Binding
import Overprint.Proofs.Pdf.Held

/-!
# The register of fonts and pictures

The press counts its fonts and its pictures. Each gets a name that ends in its number and an object
that nothing else has, and keeps both for as long as the press is used; what has the same key later on
gets the same entry. So names and objects tell fonts and pictures apart exactly as keys do.
-/

namespace Overprint

open Drawing Pdf

namespace Asset

/-- The category of resources in which an asset has its name. -/
def category : Asset → String
  | font _ => "Font"
  | picture _ => "XObject"

/-- What a press takes for the same asset: fonts with one key, and pictures with one path. -/
def Same : Asset → Asset → Prop
  | font first, font second => first.key = second.key
  | picture first, picture second =>
    Text.Path.components first.path = Text.Path.components second.path
  | _, _ => False

end Asset

namespace Pdf

variable {κ υ : Type} [Ord κ]

theorem toString_injective {first second : Nat} (heq : toString first = toString second) :
    first = second := by
  rw [Nat.toString_eq_ofList_toDigits, Nat.toString_eq_ofList_toDigits, String.ofList_inj] at heq
  have hdigits := congrArg (Nat.ofDigitChars 10 · 0) heq
  simpa only [Nat.ofDigitChars_ten_toDigits] using hdigits

theorem append_ne_append {first second : String} (hlength : first.length = second.length)
    (hne : first ≠ second) (left right : String) : first ++ left ≠ second ++ right := by
  intro heq
  have hletters := congrArg String.toList heq
  rw [String.toList_append, String.toList_append] at hletters
  exact hne (String.toList_inj.1 (List.append_inj_left hletters hlength))

/-- No two keys of a map have the same thing read off their values. -/
def Apart {α : Type} (read : υ → α) (table : SortedMap κ υ) : Prop :=
  ∀ key value, table.get? key = some value → ∀ other found, table.get? other = some found →
    read value = read found → key = other

theorem Apart.insert [Std.TransOrd κ] [Std.LawfulEqOrd κ] {α : Type} {read : υ → α}
    {table : SortedMap κ υ} {key : κ} {value : υ} (hapart : Apart read table)
    (hnew : ∀ other found, other ≠ key → table.get? other = some found →
      read found ≠ read value) : Apart read (table.insert key value) := by
  intro left seen hleft right found hright heq
  rcases SortedMap.get?_insert_eq_some hleft with ⟨rfl, rfl⟩ | ⟨hneLeft, holdLeft⟩
  · rcases SortedMap.get?_insert_eq_some hright with ⟨rfl, -⟩ | ⟨hneRight, holdRight⟩
    · rfl
    · exact (hnew right found hneRight holdRight heq.symm).elim
  · rcases SortedMap.get?_insert_eq_some hright with ⟨rfl, rfl⟩ | ⟨-, holdRight⟩
    · exact (hnew left seen hneLeft holdLeft heq).elim
    · exact hapart left seen holdLeft right found holdRight heq

/-- Entries that were counted as they were made: the name of each ends in a number that was reached,
and no two keys share a name or an object. The objects have numbers in a range. -/
structure Counted (start : String) (name : υ → String) (id : υ → ObjectId) (first last : Nat)
    (table : SortedMap κ υ) : Prop where
  named : ∀ key value, table.get? key = some value →
    ∃ index, index ≤ table.size ∧ name value = start ++ toString index
  range : ∀ key value, table.get? key = some value →
    first < (id value).number ∧ (id value).number ≤ last
  names : Apart name table
  ids : Apart id table

namespace Counted

variable {start : String} {name : υ → String} {id : υ → ObjectId} {first last later : Nat}
  {table : SortedMap κ υ} {key : κ} {value old : υ}

theorem empty : Counted start name id first last (∅ : SortedMap κ υ) where
  named _ _ hget := by cases hget
  range _ _ hget := by cases hget
  names _ _ hget := by cases hget
  ids _ _ hget := by cases hget

theorem mono (hcounted : Counted start name id first last table) (hle : last ≤ later) :
    Counted start name id first later table where
  named := hcounted.named
  range key value hget := (hcounted.range key value hget).imp_right (Nat.le_trans · hle)
  names := hcounted.names
  ids := hcounted.ids

variable [Std.TransOrd κ] [Std.LawfulEqOrd κ]

/-- An entry may be made or replaced if no other one has its name or its object. -/
theorem insert (hcounted : Counted start name id first last table)
    (hnamed : ∃ index, index ≤ (table.insert key value).size ∧
      name value = start ++ toString index)
    (hrange : first < (id value).number ∧ (id value).number ≤ last)
    (hfresh : ∀ other found, other ≠ key → table.get? other = some found →
      name found ≠ name value ∧ id found ≠ id value) :
    Counted start name id first last (table.insert key value) where
  named := by
    refine SortedMap.forall_get?_insert (fun other found hget => ?_) hnamed
    obtain ⟨index, hindex, hname⟩ := hcounted.named other found hget
    exact ⟨index, Nat.le_trans hindex (SortedMap.size_insert table key value).1, hname⟩
  range := SortedMap.forall_get?_insert hcounted.range hrange
  names := hcounted.names.insert fun other found hne hget => (hfresh other found hne hget).1
  ids := hcounted.ids.insert fun other found hne hget => (hfresh other found hne hget).2

theorem insert_new (hcounted : Counted start name id first last table)
    (hkey : table.get? key = none) (hname : name value = start ++ toString (table.size + 1))
    (hfirst : first ≤ last) (hid : last < (id value).number) (hlater : (id value).number ≤ later) :
    Counted start name id first later (table.insert key value) := by
  have hsize := (SortedMap.size_insert table key value).2 hkey
  refine (hcounted.mono (by omega)).insert ⟨_, Nat.le_of_eq hsize.symm, hname⟩ (by omega)
    fun other found _ hget => ⟨fun heq => ?_, fun heq => ?_⟩
  · obtain ⟨index, hindex, hother⟩ := hcounted.named other found hget
    rw [hother, hname, String.append_right_inj] at heq
    have hnumber := toString_injective heq
    omega
  · have hrange := hcounted.range other found hget
    rw [heq] at hrange
    omega

theorem replace (hcounted : Counted start name id first last table)
    (hget : table.get? key = some old) (hname : name value = name old) (hid : id value = id old) :
    Counted start name id first last (table.insert key value) := by
  obtain ⟨index, hindex, hnamed⟩ := hcounted.named key old hget
  have hrange := hcounted.range key old hget
  refine hcounted.insert ?_ (hid ▸ hrange) fun other found hne hother => ⟨fun heq => ?_, fun heq => ?_⟩
  · exact ⟨index, Nat.le_trans hindex (SortedMap.size_insert table key value).1,
      hname.trans hnamed⟩
  · exact hne (hcounted.names other found hother key old hget (heq.trans hname))
  · exact hne (hcounted.ids other found hother key old hget (heq.trans hid))

end Counted

section Documents

/-- What the document has for a font before all text is known: a standard font, or nothing yet. -/
def earlyObject : Font → Option Object
  | .standard font => some (.dictionary (standardFont font))
  | .embedded _ => none

namespace Document

/-- A document that grew: dictionaries of pages were written, and every new number has an object. -/
structure Grows (pages : ObjectId → Prop) (source current : Document) : Prop where
  numbered : current.Numbered
  overprints : source.Overprints pages current
  filled : ∀ number, source.lastNumber < number → number ≤ current.lastNumber →
    current.objects.get? ⟨number, 0⟩ ≠ none

variable {pages : ObjectId → Prop} {source current : Document} {id : ObjectId}
  {picture : Picture}

theorem get?_add (document : Document) (object : Object) :
    (document.add object).2.objects.get? (document.add object).1 = some object :=
  SortedMap.get?_insert_self ..

theorem get?_add_of_le (hle : id.number ≤ source.lastNumber) (object : Object) :
    (source.add object).2.objects.get? id = source.objects.get? id := by
  refine SortedMap.get?_insert_of_ne ?_
  rintro rfl
  exact Nat.not_succ_le_self _ hle

theorem Grows.refl (hnumbered : source.Numbered) : Grows (fun _ => False) source source where
  numbered := hnumbered
  overprints := .untouched source
  filled number hlt hle := by omega

theorem Grows.add (hnumbered : source.Numbered) (hgrows : Grows pages source current)
    (object : Object) : Grows pages source (current.add object).2 where
  numbered := hgrows.numbered.add object
  overprints := (hgrows.overprints.add hnumbered object).1
  filled number hlt hle := by
    by_cases hnumber : number = current.lastNumber + 1
    · subst hnumber
      simp [Document.add, Document.reserve, Document.put]
    · have hold : (⟨number, 0⟩ : ObjectId).number ≤ current.lastNumber := by
        have hle : number ≤ current.lastNumber + 1 := hle
        dsimp only
        omega
      rw [get?_add_of_le hold]
      exact hgrows.filled number hlt hold

/-- A picture that is put into a document is there. -/
theorem hasPicture_addPicture (document : Document) (picture : Picture) :
    (document.addPicture picture).2.HasPicture (document.addPicture picture).1 picture := by
  obtain ⟨path, width, height, data⟩ := picture
  cases data with
  | jpeg bytes grey => exact ⟨_, _, get?_add _ _, rfl, Dictionary.isImage_pictureEntries _, rfl, rfl⟩
  | samples rgb alpha? =>
    cases alpha? with
    | none => exact ⟨_, _, get?_add _ _, rfl, Dictionary.isImage_pictureEntries [], rfl, rfl⟩
    | some alpha =>
      let picture : Picture := { path, width, height, data := .samples rgb (some alpha) }
      let masked := document.add (.stream (pictureEntries picture "DeviceGray") alpha)
      have hkept (object : Object) : (masked.2.add object).2.objects.get? masked.1 =
          some (.stream (pictureEntries picture "DeviceGray") alpha) :=
        (get?_add_of_le (Nat.le_refl _) _).trans (get?_add _ _)
      exact ⟨_, _, get?_add _ _, rfl, Dictionary.isImage_pictureEntries _,
        ⟨masked.1, _, rfl, hkept _, Dictionary.isImage_pictureEntries [], rfl, rfl⟩, rfl⟩

theorem Grows.addPicture (hnumbered : source.Numbered) (hgrows : Grows pages source current)
    (picture : Picture) : Grows pages source (current.addPicture picture).2 ∧
      (current.addPicture picture).2.HasPicture (current.addPicture picture).1 picture ∧
      current.lastNumber < (current.addPicture picture).1.number ∧
      (current.addPicture picture).1.number ≤ (current.addPicture picture).2.lastNumber := by
  have hhas := hasPicture_addPicture current picture
  obtain ⟨path, width, height, data⟩ := picture
  cases data with
  | jpeg bytes grey => exact ⟨hgrows.add hnumbered _, hhas, Nat.lt_succ_self _, Nat.le_refl _⟩
  | samples rgb alpha? =>
    cases alpha? with
    | none => exact ⟨hgrows.add hnumbered _, hhas, Nat.lt_succ_self _, Nat.le_refl _⟩
    | some alpha =>
      have hlast : current.lastNumber < current.lastNumber + 1 + 1 := by omega
      exact ⟨(hgrows.add hnumbered _).add hnumbered _, hhas, hlast, Nat.le_refl _⟩

end Document

end Documents

namespace Press

/-- The press has an asset under a name and a number. -/
def Has (press : Press) : Asset → String → ObjectId → Prop
  | .font font, name, id =>
    ∃ entry, press.fonts.get? font.key = some entry ∧ entry.name = name ∧ entry.id = id
  | .picture picture, name, id =>
    press.pictures.get? (Text.Path.components picture.path) = some (name, id)

/-- Whatever a press has, another one has under the same name and number. -/
def Retains (before after : Press) : Prop :=
  ∀ asset name id, before.Has asset name id → after.Has asset name id

/-- A press in the course of printing on a document with a last number. Its fonts and pictures are
counted and come from the library. They are in the document, only that embedded fonts are still to be
written; and nothing else is missing there. -/
structure Registered (library : Library) (first : Nat) (press : Press) : Prop where
  numbered : press.document.Numbered
  started : first ≤ press.document.lastNumber
  fonts : Counted "PdfStampF" FontEntry.name FontEntry.id first press.document.lastNumber
    press.fonts
  pictures : Counted "PdfStampI" Prod.fst Prod.snd first press.document.lastNumber press.pictures
  keys : ∀ key entry, press.fonts.get? key = some entry → entry.font.key = key ∧
    library.Provides (.font entry.font) ∧
    press.document.objects.get? entry.id = earlyObject entry.font
  shown : ∀ key entry, press.pictures.get? key = some entry →
    ∃ picture, Text.Path.components picture.path = key ∧ library.Provides (.picture picture) ∧
      press.document.HasPicture entry.2 picture
  filled : ∀ number, first < number → number ≤ press.document.lastNumber →
    press.document.objects.get? ⟨number, 0⟩ ≠ none ∨
      ∃ key entry, press.fonts.get? key = some entry ∧ entry.id = ⟨number, 0⟩

variable {library : Library} {first : Nat} {press : Press}

theorem registered_start {document : Document} (hnumbered : document.Numbered) (layer : Layer) :
    Registered library document.lastNumber { document, layer } where
  numbered := hnumbered
  started := Nat.le_refl _
  fonts := .empty
  pictures := .empty
  keys _ _ hget := by cases hget
  shown _ _ hget := by cases hget
  filled number hlt hle := by
    have hle : number ≤ document.lastNumber := hle
    omega

namespace Registered

variable (hregistered : press.Registered library first)

include hregistered

/-- Fonts and pictures have neither names nor objects in common: the objects of the one kind are
streams, those of the other are not. -/
theorem ne_of_kinds {font : Font} {picture : Picture} {name found : String} {id place : ObjectId}
    (hfont : press.Has (.font font) name id) (hpicture : press.Has (.picture picture) found place) :
    name ≠ found ∧ id ≠ place := by
  obtain ⟨entry, hentry, rfl, rfl⟩ := hfont
  constructor
  · obtain ⟨index, -, hname⟩ := hregistered.fonts.named _ _ hentry
    obtain ⟨other, -, hfound⟩ := hregistered.pictures.named _ _ hpicture
    have hlength : "PdfStampF".length = "PdfStampI".length := by decide
    have hkinds : "PdfStampF" ≠ "PdfStampI" := by decide
    dsimp only at hfound
    rw [hname, hfound]
    exact append_ne_append hlength hkinds _ _
  · rintro rfl
    obtain ⟨-, -, hobject⟩ := hregistered.keys _ _ hentry
    obtain ⟨shown, -, -, hhas⟩ := hregistered.shown _ _ hpicture
    obtain ⟨entries, data, hstream, -⟩ := hhas
    rw [hobject] at hstream
    cases hkind : entry.font with
    | standard => simp [hkind, earlyObject] at hstream
    | embedded => simp [hkind, earlyObject] at hstream

theorem same_iff {asset other : Asset} {name found : String} {id place : ObjectId}
    (hasset : press.Has asset name id) (hother : press.Has other found place) :
    (name = found ↔ asset.Same other) ∧ (id = place ↔ asset.Same other) := by
  cases asset with
  | font font =>
    cases other with
    | font other =>
      obtain ⟨entry, hentry, rfl, rfl⟩ := hasset
      obtain ⟨second, hsecond, rfl, rfl⟩ := hother
      have hsame (hkey : font.key = other.key) : entry = second := by
        rw [hkey, hsecond] at hentry
        exact (Option.some.inj hentry).symm
      constructor
      · exact ⟨hregistered.fonts.names _ _ hentry _ _ hsecond, fun hkey => by rw [hsame hkey]⟩
      · exact ⟨hregistered.fonts.ids _ _ hentry _ _ hsecond, fun hkey => by rw [hsame hkey]⟩
    | picture other =>
      obtain ⟨hname, hid⟩ := hregistered.ne_of_kinds hasset hother
      exact ⟨iff_of_false hname not_false, iff_of_false hid not_false⟩
  | picture picture =>
    cases other with
    | font other =>
      obtain ⟨hname, hid⟩ := hregistered.ne_of_kinds hother hasset
      exact ⟨iff_of_false hname.symm not_false, iff_of_false hid.symm not_false⟩
    | picture other =>
      have hsame (hkey : Text.Path.components picture.path = Text.Path.components other.path) :
          (name, id) = (found, place) := by
        have hentry : press.pictures.get? (Text.Path.components picture.path) =
          some (name, id) := hasset
        rw [hkey, hother] at hentry
        exact (Option.some.inj hentry).symm
      constructor
      · exact ⟨hregistered.pictures.names _ _ hasset _ _ hother, fun hkey =>
          congrArg Prod.fst (hsame hkey)⟩
      · exact ⟨hregistered.pictures.ids _ _ hasset _ _ hother, fun hkey =>
          congrArg Prod.snd (hsame hkey)⟩

section Documents

variable {document : Document} {pages : ObjectId → Prop}

/-- Fonts stay as they are while other objects are added and pages are written. -/
theorem keys_of_overprints (hover : press.document.Overprints pages document)
    (hpages : ∀ id, pages id → id.number ≤ first) {key : String} {entry : FontEntry}
    (hget : press.fonts.get? key = some entry) : entry.font.key = key ∧
      library.Provides (.font entry.font) ∧
      document.objects.get? entry.id = earlyObject entry.font := by
  obtain ⟨hkey, hprovides, hobject⟩ := hregistered.keys key entry hget
  obtain ⟨hlt, hle⟩ := hregistered.fonts.range key entry hget
  have hpage : ¬ pages entry.id := by
    intro hpage
    have hle := hpages entry.id hpage
    omega
  refine ⟨hkey, hprovides, ?_⟩
  rw [hover.kept entry.id hle hpage, hobject]

theorem shown_of_overprints (hover : press.document.Overprints pages document)
    {key : List String} {entry : String × ObjectId}
    (hget : press.pictures.get? key = some entry) : ∃ picture,
      Text.Path.components picture.path = key ∧ library.Provides (.picture picture) ∧
      document.HasPicture entry.2 picture := by
  obtain ⟨picture, hkey, hprovides, hhas⟩ := hregistered.shown key entry hget
  refine ⟨picture, hkey, hprovides, hhas.mono fun id entries data hget => ?_⟩
  exact hover.get?_of_not_dictionary hregistered.numbered hget rfl

theorem filled_of_overprints (hover : press.document.Overprints pages document)
    (hpages : ∀ id, pages id → id.number ≤ first) {number : Nat} (hlt : first < number)
    (hle : number ≤ press.document.lastNumber) : document.objects.get? ⟨number, 0⟩ ≠ none ∨
      ∃ key entry, press.fonts.get? key = some entry ∧ entry.id = ⟨number, 0⟩ := by
  refine (hregistered.filled number hlt hle).imp_left fun hfilled => ?_
  have hpage : ¬ pages ⟨number, 0⟩ := by
    intro hpage
    have hle : number ≤ first := hpages _ hpage
    omega
  rw [hover.kept ⟨number, 0⟩ hle hpage]
  exact hfilled

theorem withDocument (hgrows : press.document.Grows pages document)
    (hpages : ∀ id, pages id → id.number ≤ first) :
    Registered library first { press with document } where
  numbered := hgrows.numbered
  started := Nat.le_trans hregistered.started hgrows.overprints.last
  fonts := hregistered.fonts.mono hgrows.overprints.last
  pictures := hregistered.pictures.mono hgrows.overprints.last
  keys _ _ hget := hregistered.keys_of_overprints hgrows.overprints hpages hget
  shown _ _ hget := hregistered.shown_of_overprints hgrows.overprints hget
  filled number hlt hle := by
    by_cases hold : number ≤ press.document.lastNumber
    · exact hregistered.filled_of_overprints hgrows.overprints hpages hlt hold
    · exact .inl (hgrows.filled number (by omega) hle)

/-- A font with a new key gets the next name and the next number. -/
theorem newFont {entry : FontEntry} (hnumbered : document.Numbered)
    (hover : press.document.Overprints (fun _ => False) document)
    (hlast : document.lastNumber = press.document.lastNumber + 1)
    (hkey : press.fonts.get? entry.font.key = none)
    (hname : entry.name = "PdfStampF" ++ toString (press.fonts.size + 1))
    (hid : entry.id = ⟨press.document.lastNumber + 1, 0⟩)
    (hprovides : library.Provides (.font entry.font))
    (hobject : document.objects.get? entry.id = earlyObject entry.font) :
    Registered library first
      { press with document, fonts := press.fonts.insert entry.font.key entry } where
  numbered := hnumbered
  started := Nat.le_trans hregistered.started hover.last
  fonts := by
    have hnumber : entry.id.number = press.document.lastNumber + 1 := by rw [hid]
    exact hregistered.fonts.insert_new hkey hname hregistered.started (by omega)
      (Nat.le_of_eq (hnumber.trans hlast.symm))
  pictures := hregistered.pictures.mono hover.last
  keys := SortedMap.forall_get?_insert
    (fun _ _ hget => hregistered.keys_of_overprints hover (fun _ hfalse => hfalse.elim) hget)
    ⟨rfl, hprovides, hobject⟩
  shown _ _ hget := hregistered.shown_of_overprints hover hget
  filled number hlt hle := by
    by_cases hold : number ≤ press.document.lastNumber
    · rcases hregistered.filled_of_overprints hover (fun _ hfalse => hfalse.elim) hlt hold with
        hfilled | ⟨key, found, hget, hfound⟩
      · exact .inl hfilled
      · have hne : key ≠ entry.font.key := by
          rintro rfl
          rw [hkey] at hget
          cases hget
        exact .inr ⟨key, found, (SortedMap.get?_insert_of_ne hne).trans hget, hfound⟩
    · have hnumber : number = press.document.lastNumber + 1 := by
        have hle : number ≤ document.lastNumber := hle
        omega
      refine .inr ⟨entry.font.key, entry, SortedMap.get?_insert_self .., ?_⟩
      rw [hid, hnumber]

end Documents

theorem noteFont {key : String} {entry old : FontEntry}
    (hold : press.fonts.get? key = some old) (hname : entry.name = old.name)
    (hid : entry.id = old.id) (hfont : entry.font = old.font) :
    Registered library first { press with fonts := press.fonts.insert key entry } where
  numbered := hregistered.numbered
  started := hregistered.started
  fonts := hregistered.fonts.replace hold hname hid
  pictures := hregistered.pictures
  keys := by
    refine SortedMap.forall_get?_insert hregistered.keys ?_
    rw [hfont, hid]
    exact hregistered.keys key old hold
  shown := hregistered.shown
  filled number hlt hle := by
    refine (hregistered.filled number hlt hle).imp_right ?_
    rintro ⟨other, found, hget, hfound⟩
    by_cases hother : other = key
    · subst hother
      rw [hold] at hget
      cases hget
      exact ⟨other, entry, SortedMap.get?_insert_self .., hid.trans hfound⟩
    · exact ⟨other, found, (SortedMap.get?_insert_of_ne hother).trans hget, hfound⟩

end Registered

/-- An entry for a font, new or with the name and number of the old one, takes nothing away. -/
theorem retains_insertFont {press : Press} {key : String} {entry : FontEntry} (document : Document)
    (hold : ∀ old, press.fonts.get? key = some old → entry.name = old.name ∧ entry.id = old.id) :
    press.Retains { press with document, fonts := press.fonts.insert key entry } := by
  intro asset name id hhas
  cases asset with
  | font font =>
    obtain ⟨found, hget, hname, hid⟩ := hhas
    by_cases hkey : font.key = key
    · subst hkey
      obtain ⟨hsameName, hsameId⟩ := hold found hget
      exact ⟨entry, SortedMap.get?_insert_self .., hsameName.trans hname, hsameId.trans hid⟩
    · exact ⟨found, (SortedMap.get?_insert_of_ne hkey).trans hget, hname, hid⟩
  | picture => exact hhas

theorem get?_useFont (press : Press) (font : Font) :
    (press.useFont font).2.fonts.get? font.key = some (press.useFont font).1 := by
  cases hget : press.fonts.get? font.key with
  | some entry =>
    simp only [useFont, hget]
  | none =>
    simp only [useFont, hget]
    exact SortedMap.get?_insert_self ..

namespace Registered

variable (hregistered : press.Registered library first)

include hregistered

theorem useFont {font : Font} (hfont : library.Provides (.font font)) :
    (press.useFont font).2.Registered library first ∧
      press.Retains (press.useFont font).2 := by
  cases hget : press.fonts.get? font.key with
  | some entry =>
    simp only [Press.useFont, hget]
    exact ⟨hregistered, fun _ _ _ hhas => hhas⟩
  | none =>
    have hnumbered := hregistered.numbered
    have hnone (document : Document) (entry : FontEntry) : press.Retains
        { press with document, fonts := press.fonts.insert font.key entry } := by
      refine retains_insertFont document fun old hold => ?_
      rw [hget] at hold
      cases hold
    simp only [Press.useFont, hget]
    have hname : s!"PdfStampF{press.fonts.size + 1}" =
        "PdfStampF" ++ toString (press.fonts.size + 1) := rfl
    let id : ObjectId := ⟨press.document.lastNumber + 1, 0⟩
    let entry : FontEntry := { name := s!"PdfStampF{press.fonts.size + 1}", id, font }
    cases font with
    | standard standard =>
      refine ⟨?_, hnone _ _⟩
      let object := Object.dictionary (standardFont standard)
      have hobject : (press.document.add object).2.objects.get? entry.id =
          earlyObject entry.font := Document.get?_add ..
      exact hregistered.newFont (hnumbered.add object)
        ((Document.Overprints.untouched _).add hnumbered object).1 rfl hget hname rfl hfont hobject
    | embedded embedded =>
      refine ⟨?_, hnone _ _⟩
      have hobject : press.document.reserve.2.objects.get? entry.id = earlyObject entry.font :=
        hnumbered.get?_of_lt (Nat.lt_succ_self _)
      exact hregistered.newFont hnumbered.reserve (Document.Overprints.untouched _).reserve.1 rfl
        hget hname rfl hfont hobject

theorem encodeText {font : Font} (hfont : library.Provides (.font font)) (text : String) :
    (press.encodeText font text).2.Registered library first ∧
      press.Retains (press.encodeText font text).2 := by
  obtain ⟨hused, hretains⟩ := hregistered.useFont hfont
  have hget := press.get?_useFont font
  simp only [Press.encodeText]
  split
  next => exact ⟨hused, hretains⟩
  next embedded hembedded =>
    refine ⟨hused.noteFont hget rfl rfl rfl, fun asset name id hhas => ?_⟩
    refine retains_insertFont _ (fun old hold => ?_) asset name id (hretains asset name id hhas)
    rw [hget] at hold
    cases hold
    exact ⟨rfl, rfl⟩

theorem usePicture {picture : Picture} (hpicture : library.Provides (.picture picture)) :
    (press.usePicture picture).2.Registered library first ∧
      press.Retains (press.usePicture picture).2 ∧
      (press.usePicture picture).2.Has (.picture picture) (press.usePicture picture).1.1
        (press.usePicture picture).1.2 := by
  cases hget : press.pictures.get? (Text.Path.components picture.path) with
  | some entry =>
    simp only [Press.usePicture, hget]
    exact ⟨hregistered, fun _ _ _ hhas => hhas, hget⟩
  | none =>
    have hnumbered := hregistered.numbered
    obtain ⟨hgrows, hhas, hlt, hle⟩ :=
      (Document.Grows.refl hnumbered).addPicture hnumbered picture
    have hdocument := hregistered.withDocument hgrows fun _ hfalse => hfalse.elim
    simp only [Press.usePicture, hget]
    refine ⟨?_, fun asset name id hasset => ?_, SortedMap.get?_insert_self ..⟩
    · exact {
        numbered := hdocument.numbered
        started := hdocument.started
        fonts := hdocument.fonts
        pictures := hregistered.pictures.insert_new hget rfl hregistered.started hlt hle
        keys := hdocument.keys
        shown := SortedMap.forall_get?_insert hdocument.shown ⟨picture, rfl, hpicture, hhas⟩
        filled := hdocument.filled }
    · cases asset with
      | font => exact hasset
      | picture other =>
        have hne : Text.Path.components other.path ≠ Text.Path.components picture.path := by
          intro heq
          rw [Has, heq, hget] at hasset
          cases hasset
        exact (SortedMap.get?_insert_of_ne hne).trans hasset

theorem addContent (bytes : List UInt8) : (press.addContent bytes).2.Registered library first :=
  hregistered.withDocument ((Document.Grows.refl hregistered.numbered).add hregistered.numbered _)
    fun _ hfalse => hfalse.elim

theorem useWrappers : press.useWrappers.2.Registered library first := by
  cases hwrappers : press.wrappers? with
  | some wrappers =>
    simp only [Press.useWrappers, hwrappers]
    exact hregistered
  | none =>
    simp only [Press.useWrappers, hwrappers]
    have hadded := (hregistered.addContent (ascii "q\n")).addContent (ascii "\nQ\n")
    exact ⟨hadded.numbered, hadded.started, hadded.fonts, hadded.pictures, hadded.keys, hadded.shown,
      hadded.filled⟩

theorem arrange (existing : List Object) (stamp : ObjectId) :
    (press.arrange existing stamp).2.Registered library first := by
  rw [Press.arrange]
  split
  · exact hregistered
  · split
    · exact hregistered
    · exact hregistered.useWrappers

/-- Attaching a stamp to a page of the document that printing started from. -/
theorem attach {page place : ObjectId} {entries : Dictionary} {stamp : Stamp}
    (hpage : press.document.locate page = .ok (place, .dictionary entries))
    (hplace : place.number ≤ first) : (press.attach page stamp).2.Registered library first := by
  have hplaced : (press.stampedContents page stamp).2.Registered library first :=
    (hregistered.addContent _).arrange _ _
  let placed := (press.stampedContents page stamp).2.document
  let edit := stampedPage ((press.stampContent stamp).2.mergedResources page stamp)
    (press.stampedContents page stamp).1
  have hlocate : placed.locate page = .ok (place, .dictionary entries) :=
    locate_stampedContents hregistered.numbered hpage
  have hget := (Document.get?_of_locate hlocate).1
  have hchange : placed.change page edit = .ok (placed.put place (.dictionary (edit entries))) :=
    Document.change_eq_ok.2 ⟨place, entries, hlocate, rfl⟩
  have hstart : placed.Overprints (· = place) placed :=
    .refl fun id hid => ⟨entries, hid ▸ hget⟩
  have hgrows : placed.Grows (· = place) (placed.put place (.dictionary (edit entries))) := {
    numbered := hplaced.numbered.put (hplaced.numbered place _ hget) _
    overprints := hstart.change hplaced.numbered hlocate rfl (samePage_stampedPage _ _) hchange
    filled := fun number hlt hle => absurd hle (Nat.not_le_of_lt hlt) }
  rw [attach_of_change hchange]
  exact hplaced.withDocument hgrows fun id hid => hid ▸ hplace

end Registered

theorem retains_attach (press : Press) (page : ObjectId) (stamp : Stamp) :
    press.Retains (press.attach page stamp).2 := by
  have hfonts : (press.stampedContents page stamp).2.fonts = press.fonts :=
    (register_arrange _ _ _).1
  have hpictures : (press.stampedContents page stamp).2.pictures = press.pictures :=
    (register_arrange _ _ _).2
  intro asset name id hhas
  have hplaced : (press.stampedContents page stamp).2.Has asset name id := by
    cases asset with
    | font => rwa [Has, hfonts]
    | picture => rwa [Has, hpictures]
  rw [attach_eq]
  dsimp only
  split
  · exact hplaced
  · exact hplaced

end Press

end Pdf

end Overprint
