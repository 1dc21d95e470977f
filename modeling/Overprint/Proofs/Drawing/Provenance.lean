import Overprint.Proofs.Drawing.Step

/-!
# Where the fonts and pictures of a drawing come from

A library gives fonts and pictures by name, and the stock has what it gave. The font of a style is the
default one or comes from the stock, and so does every picture that is shown; so a drawing uses only
what the library gives.
-/

namespace Overprint

open Drawing Script

/-- A font or picture that pages use. -/
inductive Asset where
  | font (font : Font)
  | picture (picture : Picture)

def Drawing.Call.asset? : Call → Option Asset
  | .font face _ => some (.font face)
  | .picture shown _ => some (.picture shown)
  | _ => none

namespace Library

/-- An asset that a library gives under the name that the asset has. Standard fonts are always at
hand. -/
def Provides (library : Library) : Asset → Prop
  | .font (.standard _) => True
  | .font (.embedded font) => library.font font.path = .ok (.embedded font)
  | .picture picture => library.picture picture.path = .ok picture

/-- A library in which every embedded font and every picture has the name it was asked for, and
pictures are the same if their names are the same path. -/
structure Faithful (library : Library) : Prop where
  font : ∀ name font, library.font name = .ok (.embedded font) → font.path = name
  picture : ∀ path picture, library.picture path = .ok picture → picture.path = path
  same : ∀ first picture second other, library.picture first = .ok picture →
    library.picture second = .ok other →
    Text.Path.components first = Text.Path.components second →
    other = { picture with path := second }

variable {library : Library}

theorem Faithful.provides_font (hfaithful : library.Faithful) {name : String} {font : Font}
    (hfont : library.font name = .ok font) : library.Provides (.font font) := by
  cases font with
  | standard => trivial
  | embedded font => rwa [Provides, hfaithful.font name font hfont]

theorem Faithful.provides_picture (hfaithful : library.Faithful) {path : String}
    {picture : Picture} (hpicture : library.picture path = .ok picture) :
    library.Provides (.picture picture) := by
  rwa [Provides, hfaithful.picture path picture hpicture]

end Library

/-- A library that provides whatever another one gives. -/
structure Library.Covers (shelf library : Library) : Prop where
  font : ∀ name font, library.font name = .ok font → shelf.Provides (.font font)
  picture : ∀ path picture, library.picture path = .ok picture → shelf.Provides (.picture picture)

theorem Library.Faithful.covers {library : Library} (hfaithful : library.Faithful) :
    library.Covers library where
  font _ _ hfont := hfaithful.provides_font hfont
  picture _ _ hpicture := hfaithful.provides_picture hpicture

/-- A library in which a path stands for one thing. Two embedded fonts that it gives with the same path
are the same, and two pictures too, but for the way in which the path is written. -/
structure Library.Coherent (library : Library) : Prop where
  font : ∀ first font second other, library.font first = .ok (.embedded font) →
    library.font second = .ok (.embedded other) → font.path = other.path → font = other
  picture : ∀ first picture second other, library.picture first = .ok picture →
    library.picture second = .ok other →
    Text.Path.components picture.path = Text.Path.components other.path →
    other = { picture with path := other.path }

/-- What a coherent library gives can be put on a shelf, everything under its own path. -/
theorem Library.Coherent.exists_shelf {library : Library} (hcoherent : library.Coherent) :
    ∃ shelf : Library, shelf.Faithful ∧ shelf.Covers library := by
  classical
  let font (path : String) (font : EmbeddedFont) : Prop :=
    font.path = path ∧ ∃ name, library.font name = .ok (.embedded font)
  let picture (path : String) (picture : Picture) : Prop :=
    Text.Path.components picture.path = Text.Path.components path ∧
      ∃ name, library.picture name = .ok picture
  let shelf : Library := {
    font := fun path =>
      if h : ∃ found, font path found then .ok (.embedded h.choose) else .error (.fontNotLoaded path)
    picture := fun path =>
      if h : ∃ found, picture path found then .ok { h.choose with path }
      else .error (.pictureNotLoaded path) }
  have hfont {path : String} {found : EmbeddedFont} (hfound : font path found) :
      shelf.font path = .ok (.embedded found) := by
    have hexists : ∃ found, font path found := ⟨found, hfound⟩
    obtain ⟨hpath, name, hname⟩ := hexists.choose_spec
    obtain ⟨hsame, other, hother⟩ := hfound
    simp only [shelf, dif_pos hexists]
    rw [hcoherent.font name _ other found hname hother (hpath.trans hsame.symm)]
  have hpicture {path : String} {found : Picture} (hfound : picture path found) :
      shelf.picture path = .ok { found with path } := by
    have hexists : ∃ found, picture path found := ⟨found, hfound⟩
    obtain ⟨hpath, name, hname⟩ := hexists.choose_spec
    obtain ⟨hsame, other, hother⟩ := hfound
    simp only [shelf, dif_pos hexists]
    rw [hcoherent.picture name _ other found hname hother (hpath.trans hsame.symm)]
  have hshown {path : String} {found : Picture} (hfound : shelf.picture path = .ok found) :
      ∃ given, picture path given ∧ found = { given with path } := by
    by_cases hexists : ∃ given, picture path given
    · obtain ⟨given, hgiven⟩ := hexists
      rw [hpicture hgiven, Except.ok.injEq] at hfound
      exact ⟨given, hgiven, hfound.symm⟩
    · simp only [shelf, dif_neg hexists, reduceCtorEq] at hfound
  refine ⟨shelf, ⟨fun path found hfound => ?_, fun path found hfound => ?_, ?_⟩,
    ⟨fun name found hfound => ?_, fun name found hfound => ?_⟩⟩
  · by_cases hexists : ∃ given, font path given
    · obtain ⟨given, hgiven⟩ := hexists
      rw [hfont hgiven, Except.ok.injEq, Font.embedded.injEq] at hfound
      rw [← hfound]
      exact hgiven.1
    · simp only [shelf, dif_neg hexists, reduceCtorEq] at hfound
  · obtain ⟨given, -, rfl⟩ := hshown hfound
    rfl
  · intro first shown second other hfirst hsecond hpath
    obtain ⟨given, ⟨hgiven, name, hname⟩, rfl⟩ := hshown hfirst
    obtain ⟨found, ⟨hfound, again, hagain⟩, rfl⟩ := hshown hsecond
    rw [hcoherent.picture name given again found hname hagain
      ((hgiven.trans hpath).trans hfound.symm)]
  · cases found with
    | standard => trivial
    | embedded font => exact hfont ⟨rfl, name, hfound⟩
  · exact hpicture ⟨rfl, name, hfound⟩

def Library.defaultFont (library : Library) : Option String → Outcome Font
  | none => .ok default
  | some name => library.font name

namespace Stock

theorem font_eq_ok {stock : Stock} {name : String} {font : Font} :
    stock.font name = .ok font ↔ stock.fonts.get? name = some font := by
  rw [Stock.font]
  cases stock.fonts.get? name <;> simp

theorem picture_eq_ok {stock : Stock} {path : String} {picture : Picture} :
    stock.picture path = .ok picture ↔ stock.pictures.get? path = some picture := by
  rw [Stock.picture]
  cases stock.pictures.get? path <;> simp

/-- A stock that has what a library gives, under the names that it was asked for. -/
structure Matches (library : Library) (face : Font) (stock : Stock) : Prop where
  fonts : ∀ name font, stock.fonts.get? name = some font → library.font name = .ok font
  pictures : ∀ path picture, stock.pictures.get? path = some picture →
    library.picture path = .ok picture
  default : stock.defaultFont = face

variable {library shelf : Library} {face : Font} {stock after : Stock}

namespace Matches

theorem addFont {name : String} (hmatches : stock.Matches library face)
    (hadd : (stock.addFont library name).outcome = .ok after) : after.Matches library face := by
  rw [Stock.addFont] at hadd
  split at hadd
  · cases hadd
    exact hmatches
  · obtain ⟨_, -, hadd⟩ := Traced.outcome_bind_eq_ok.1 hadd
    obtain ⟨font, hfont, hadd⟩ := Traced.outcome_bind_eq_ok.1 hadd
    cases hadd
    exact ⟨SortedMap.forall_get?_insert hmatches.fonts hfont, hmatches.pictures, hmatches.default⟩

theorem addPicture {path : String} (hmatches : stock.Matches library face)
    (hadd : (stock.addPicture library path).outcome = .ok after) : after.Matches library face := by
  rw [Stock.addPicture] at hadd
  split at hadd
  · cases hadd
    exact hmatches
  · obtain ⟨_, -, hadd⟩ := Traced.outcome_bind_eq_ok.1 hadd
    obtain ⟨picture, hpicture, hadd⟩ := Traced.outcome_bind_eq_ok.1 hadd
    cases hadd
    exact ⟨hmatches.fonts, SortedMap.forall_get?_insert hmatches.pictures hpicture,
      hmatches.default⟩

theorem supply {command : Command} (hmatches : stock.Matches library face)
    (hsupply : (stock.supply library command).outcome = .ok after) :
    after.Matches library face := by
  rw [Stock.supply] at hsupply
  split at hsupply
  · obtain ⟨path, -, hadd⟩ := Traced.outcome_bind_eq_ok.1 hsupply
    exact hmatches.addPicture hadd
  · obtain ⟨name, -, hadd⟩ := Traced.outcome_bind_eq_ok.1 hsupply
    exact hmatches.addFont hadd
  · split at hsupply
    · exact hmatches.addFont hsupply
    · cases hsupply
      exact hmatches
  · cases hsupply
    exact hmatches

theorem foldlM_supply {script : List Command} (hmatches : stock.Matches library face)
    (hfold : (script.foldlM (Stock.supply library) stock).outcome = .ok after) :
    after.Matches library face := by
  induction script generalizing stock with
  | nil =>
    cases hfold
    exact hmatches
  | cons command rest ih =>
    rw [List.foldlM_cons] at hfold
    obtain ⟨next, hsupply, hfold⟩ := Traced.outcome_bind_eq_ok.1 hfold
    exact ih (hmatches.supply hsupply) hfold

end Matches

theorem matches_empty (library : Library) : Matches library default {} where
  fonts _ _ hget := by cases hget
  pictures _ _ hget := by cases hget
  default := rfl

theorem matches_of_withDefault {name? : Option String}
    (hdefault : (withDefault library {} name?).outcome = .ok after) :
    ∃ face, library.defaultFont name? = .ok face ∧ after.Matches library face := by
  cases name? with
  | none =>
    cases hdefault
    exact ⟨default, rfl, matches_empty library⟩
  | some name =>
    obtain ⟨loaded, hadd, hdefault⟩ := Traced.outcome_bind_eq_ok.1 hdefault
    obtain ⟨font, hfont, hdefault⟩ := Traced.outcome_bind_eq_ok.1 hdefault
    cases hdefault
    have hloaded := (matches_empty library).addFont hadd
    have hgiven := hloaded.fonts name font (font_eq_ok.1 hfont)
    exact ⟨font, hgiven, hloaded.fonts, hloaded.pictures, rfl⟩

theorem matches_of_load {defaultFont? : Option String} {script : List Command}
    (hload : (load library defaultFont? script).outcome = .ok stock) :
    ∃ face, library.defaultFont defaultFont? = .ok face ∧ stock.Matches library face := by
  obtain ⟨started, hdefault, hfold⟩ := Traced.outcome_bind_eq_ok.1 hload
  obtain ⟨face, hface, hstarted⟩ := matches_of_withDefault hdefault
  exact ⟨face, hface, hstarted.foldlM_supply hfold⟩

/-- A stock of what a library provides. -/
structure From (library : Library) (stock : Stock) : Prop where
  fonts : ∀ name font, stock.fonts.get? name = some font → library.Provides (.font font)
  pictures : ∀ path picture, stock.pictures.get? path = some picture →
    library.Provides (.picture picture)
  default : library.Provides (.font stock.defaultFont)

namespace From

theorem font {name : String} {font : Font} (hfrom : stock.From library)
    (hfont : stock.font name = .ok font) : library.Provides (.font font) :=
  hfrom.fonts name font (font_eq_ok.1 hfont)

theorem picture {path : String} {picture : Picture} (hfrom : stock.From library)
    (hpicture : stock.picture path = .ok picture) : library.Provides (.picture picture) :=
  hfrom.pictures path picture (picture_eq_ok.1 hpicture)

/-- What was loaded is what any library provides that covers the one it was loaded from. -/
theorem load {defaultFont? : Option String} {script : List Command} (hcovers : shelf.Covers library)
    (hload : (Stock.load library defaultFont? script).outcome = .ok stock) : stock.From shelf := by
  obtain ⟨face, hface, hmatches⟩ := matches_of_load hload
  refine ⟨fun name font hget => hcovers.font name font (hmatches.fonts name font hget),
    fun path picture hget => hcovers.picture path picture (hmatches.pictures path picture hget), ?_⟩
  rw [hmatches.default]
  cases defaultFont? with
  | none =>
    cases hface
    trivial
  | some name => exact hcovers.font name face hface

end From

end Stock

namespace Drawing

section Plain

/-! Most of what a command draws uses neither a font nor a picture. -/

theorem Pen.asset?_opening (pen : Pen) : ∀ call ∈ pen.opening, call.asset? = none := by
  rw [opening]
  split <;> simp [Call.asset?]

theorem Pen.asset?_closing (pen : Pen) : ∀ call ∈ pen.closing, call.asset? = none := by
  rw [closing]
  split <;> simp [Call.asset?]

theorem asset?_placing (position? : Option (Number.Double × Number.Double)) :
    ∀ call ∈ placing position?, call.asset? = none := by
  cases position? <;> simp [placing, Call.asset?]

theorem asset?_showing (text : String) : ∀ call ∈ showing text, call.asset? = none := by
  intro call hmem
  rcases mem_showing hmem with rfl | ⟨line, rfl⟩ <;> rfl

namespace Style

theorem asset?_entered (style : Style) : ∀ call ∈ style.entered, call.asset? = none := by
  simp [entered, Call.asset?]

theorem asset?_announced (style : Style) (verb : Verb) :
    ∀ call ∈ style.announced verb, call.asset? = none := by
  cases verb <;> simp [announced, Call.asset?]

theorem asset?_restore (style shown : Style) :
    ∀ call ∈ style.restore shown, call.asset? = none := by
  intro call hmem
  simp only [restore, List.mem_append, List.mem_ite_nil_left, List.mem_singleton] at hmem
  rcases hmem with (⟨-, rfl⟩ | ⟨-, rfl⟩) | ⟨-, rfl⟩ <;> rfl

theorem asset?_apply (style : Style) :
    ∀ call ∈ style.apply, ∀ asset, call.asset? = some asset → asset = .font style.font := by
  simp +contextual [apply, Call.asset?]

end Style

end Plain

def Call.UsesOf (library : Library) (call : Call) : Prop :=
  ∀ asset, call.asset? = some asset → library.Provides asset

theorem Call.usesOf_of_plain {library : Library} {call : Call} (hplain : call.asset? = none) :
    call.UsesOf library := by
  intro asset hasset
  rw [hplain] at hasset
  cases hasset

variable {library : Library} {scene : Scene} {pen after : Pen} {command : Command}
  {trace : List Call}

theorem Style.provides_overlay {style shown : Style} (hfrom : scene.stock.From library)
    (hfont : library.Provides (.font style.font))
    (hshown : style.overlay scene.stock command = .ok shown) :
    library.Provides (.font shown.font) := by
  have hsets := (laidOver_of_overlay hshown).font
  rw [Command.Sets] at hsets
  split at hsets
  next => exact hfrom.font hsets
  next => exact hsets ▸ hfont

theorem Style.provides_change {style changed : Style} (hfrom : scene.stock.From library)
    (hfont : library.Provides (.font style.font))
    (hchange : style.change scene.stock command = .ok changed) :
    library.Provides (.font changed.font) := by
  obtain ⟨verb, operands, settings⟩ := command
  cases verb with
  | fontFile =>
    obtain ⟨name, -, hchange⟩ := Outcome.bind_eq_ok.1 hchange
    obtain ⟨font, hname, hchange⟩ := Outcome.bind_eq_ok.1 hchange
    cases hchange
    exact hfrom.font hname
  | fontSize | leading | charSpacing | wordSpacing | textRise | textRenderingMode
  | horizontalScaling | lineWidth | fillColor | strokeColor =>
    obtain ⟨_, -, hchange⟩ := Outcome.bind_eq_ok.1 hchange
    cases hchange
    exact hfont
  | color =>
    obtain ⟨_, -, hchange⟩ := Outcome.bind_eq_ok.1 hchange
    obtain ⟨_, -, hchange⟩ := Outcome.bind_eq_ok.1 hchange
    cases hchange
    exact hfont
  | _ =>
    cases hchange
    exact hfont

/-- A step uses what the library gives, and leaves a style with a font of the library. -/
theorem Step.usesOf (hstep : Step scene pen command trace after)
    (hfrom : scene.stock.From library) (hfont : library.Provides (.font pen.style.font)) :
    (∀ call ∈ trace, call.UsesOf library) ∧ library.Provides (.font after.style.font) := by
  cases hstep with
  | @style style hrole hchange =>
    refine ⟨fun call hmem => ?_, Style.provides_change hfrom hfont hchange⟩
    exact Call.usesOf_of_plain (style.asset?_announced command.verb call hmem)
  | mark hrole hmarks hpictures =>
    refine ⟨fun call hmem asset hasset => ?_, hfont⟩
    cases call with
    | font font size => exact (hmarks _ hmem).elim
    | picture picture box =>
      obtain ⟨path, hpath⟩ := hpictures picture box hmem
      cases hasset
      exact hfrom.picture hpath
    | _ => cases hasset
  | position hrole =>
    refine ⟨fun call hmem => Call.usesOf_of_plain ?_, hfont⟩
    rcases List.mem_append.1 hmem with hmem | hmem
    · exact pen.asset?_opening call hmem
    · cases List.mem_singleton.1 hmem
      rfl
  | @text position? shown operand hverb hposition hshown hoperand =>
    refine ⟨fun call hmem => ?_, hfont⟩
    simp only [List.mem_append] at hmem
    rcases hmem with (((hopened | happlied) | hplaced) | hshowing) | hrestored
    · exact Call.usesOf_of_plain (pen.asset?_opening call hopened)
    · intro asset hasset
      rw [shown.asset?_apply call happlied asset hasset]
      exact Style.provides_overlay hfrom hfont hshown
    · exact Call.usesOf_of_plain (asset?_placing position? call hplaced)
    · exact Call.usesOf_of_plain (asset?_showing _ call hshowing)
    · exact Call.usesOf_of_plain (pen.style.asset?_restore shown call hrestored)
  | literal hverb hcontent =>
    refine ⟨fun call hmem => Call.usesOf_of_plain ?_, hfont⟩
    cases List.mem_singleton.1 hmem
    rfl

theorem usesOf_of_foldlM {commands : List Command} (hfrom : scene.stock.From library)
    (hfont : library.Provides (.font pen.style.font))
    (hfold : commands.foldlM scene.perform pen = ⟨trace, .ok after⟩) :
    ∀ call ∈ trace, call.UsesOf library := by
  induction commands generalizing pen trace with
  | nil =>
    cases hfold
    intro call hmem
    cases hmem
  | cons command rest ih =>
    rw [List.foldlM_cons] at hfold
    obtain ⟨first, next, last, hperform, hrest, rfl⟩ := Traced.bind_eq_ok.1 hfold
    obtain ⟨hfirst, hnext⟩ := (step_of_perform hperform).usesOf hfrom hfont
    intro call hmem
    rcases List.mem_append.1 hmem with hmem | hmem
    · exact hfirst call hmem
    · exact ih hnext hrest call hmem

theorem usesOf_page {defaults : Defaults} {commands : List Command}
    (hfrom : scene.stock.From library)
    (hpage : scene.page defaults commands = ⟨trace, .ok ()⟩) :
    ∀ call ∈ trace, call.UsesOf library := by
  obtain ⟨style, first, pen, hstyle, hfold, rfl⟩ := page_eq_ok hpage
  obtain ⟨fill, -, hstyle⟩ := Outcome.bind_eq_ok.1 hstyle
  obtain ⟨stroke, -, hstyle⟩ := Outcome.bind_eq_ok.1 hstyle
  cases hstyle
  intro call hmem
  rcases List.mem_append.1 hmem with hentered | hmem
  · exact Call.usesOf_of_plain (Style.asset?_entered _ call hentered)
  · rcases List.mem_append.1 hmem with hdrawn | hclosed
    · exact usesOf_of_foldlM hfrom hfrom.default hfold call hdrawn
    · exact Call.usesOf_of_plain (pen.asset?_closing call hclosed)

end Drawing

end Overprint
