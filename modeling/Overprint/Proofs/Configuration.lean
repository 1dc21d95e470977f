import Overprint.Codec.Content
import Overprint.Invocation
import Overprint.Proofs.Files.Walk
import Overprint.Proofs.Notation.Overlay

/-!
# Configuration files

A configuration file is an object whose members are laid over the defaults, and so is what it says
about the style that pages start from. Here are the slots of both, and with them what the text of a
file means: when it is accepted, what comes of it, and that the order of its members is nothing.
-/

namespace Overprint

open Drawing Notation Number Outcome

/-! ### Slots with values of a kind -/

namespace Notation

def Numeric.toSingle : Numeric → Single
  | natural value => .ofNat value
  | negative value => .ofInt value
  | double value => value.convert

/-- The number if it is whole and fits in sixty-four bits with a sign. -/
def Numeric.toInteger? : Numeric → Option Int
  | natural value => if value < 0x8000000000000000 then some value else none
  | negative value => some value
  | double _ => none

namespace Slot

variable {α β : Type}

def single (name : String) (get : α → Single) (put : α → Single → α) : Slot α where
  name
  Content := Single
  Means value content := ∃ number, value = .number number ∧ number.toSingle = content
  get
  put

def integer (name : String) (get : α → Int) (put : α → Int → α) : Slot α where
  name
  Content := Int
  Means value content := ∃ number, value = .number number ∧ number.toInteger? = some content
  get
  put

def text (name : String) (get : α → String) (put : α → String → α) : Slot α where
  name
  Content := String
  Means value content := value = .text content
  get
  put

end Slot

end Notation

namespace Drawing.Defaults

def slots : List (Slot Defaults) := [
  .single "font_size" fontSize fun defaults fontSize => { defaults with fontSize },
  .single "leading" leading fun defaults leading => { defaults with leading },
  .single "character_spacing" charSpacing fun defaults charSpacing => { defaults with charSpacing },
  .single "word_spacing" wordSpacing fun defaults wordSpacing => { defaults with wordSpacing },
  .single "text_rise" rise fun defaults rise => { defaults with rise },
  .integer "rendering_mode" renderingMode fun defaults renderingMode =>
    { defaults with renderingMode },
  .single "horizontal_scaling" horizontalScaling fun defaults horizontalScaling =>
    { defaults with horizontalScaling },
  .text "fill_color" fillColor fun defaults fillColor => { defaults with fillColor },
  .text "stroke_color" strokeColor fun defaults strokeColor => { defaults with strokeColor },
  .single "line_width" lineWidth fun defaults lineWidth => { defaults with lineWidth }]

theorem slots_coordinates : Slot.Coordinates slots where
  names_nodup := by decide
  ext := by
    intro left right heq
    simp only [slots, List.forall_mem_cons] at heq
    obtain ⟨_, _, _, _, _, _, _, _, _, _, -⟩ := heq
    cases left
    cases right
    simp_all [Slot.single, Slot.integer, Slot.text]
  get_put := by
    simp [slots, Slot.single, Slot.integer, Slot.text]
  get_put_of_ne := by
    simp [slots, Slot.single, Slot.integer, Slot.text]

end Drawing.Defaults

namespace Configuration

def defaultsSlot : Slot Configuration where
  name := "defaults"
  Content := Defaults
  Means := IsRecord Defaults.slots {}
  get := defaults
  put configuration defaults := { configuration with defaults }

def slots : List (Slot Configuration) := [
  defaultsSlot,
  { name := "default_font"
    Content := Option String
    Means := fun value content? => value = Reader.textOrNull content?
    get := defaultFont?
    put := fun configuration defaultFont? => { configuration with defaultFont? } },
  { name := "layer"
    Content := Layer
    Means := Reader.IsChoice layers
    get := layer
    put := fun configuration layer => { configuration with layer } }]

theorem slots_coordinates : Slot.Coordinates slots where
  names_nodup := by decide
  ext := by
    intro left right heq
    simp only [slots, List.forall_mem_cons] at heq
    obtain ⟨_, _, _, -⟩ := heq
    cases left
    cases right
    simp_all [defaultsSlot]
  get_put := by
    simp [slots, defaultsSlot]
  get_put_of_ne := by
    simp [slots, defaultsSlot]

theorem reads_single : Reads single fun value content =>
    ∃ number, value = .number number ∧ number.toSingle = content := by
  intro tokens result rest
  constructor
  · intro h
    obtain ⟨⟨number, after⟩, hnumber, hresult⟩ := bind_eq_ok.1 h
    obtain ⟨value, rfl, rfl⟩ := (Reader.reads_number _ _ _).1 hnumber
    cases hresult
    exact ⟨.number number, ⟨number, rfl, by cases number <;> rfl⟩, rfl⟩
  · rintro ⟨_, ⟨number, rfl, rfl⟩, rfl⟩
    cases number <;> rfl

theorem reads_integer : Reads integer fun value content =>
    ∃ number, value = .number number ∧ number.toInteger? = some content := by
  intro tokens result rest
  constructor
  · intro h
    obtain ⟨⟨number, after⟩, hnumber, hresult⟩ := bind_eq_ok.1 h
    obtain ⟨value, rfl, rfl⟩ := (Reader.reads_number _ _ _).1 hnumber
    have hinteger : number.toInteger? = some result ∧ after = rest := by
      cases number with
      | natural value =>
        dsimp only at hresult
        split at hresult
        next hlt =>
          cases hresult
          exact ⟨if_pos hlt, rfl⟩
        next => cases hresult
      | negative value =>
        cases hresult
        exact ⟨rfl, rfl⟩
      | double value => cases hresult
    exact ⟨.number number, ⟨number, rfl, hinteger.1⟩, by rw [hinteger.2]⟩
  · rintro ⟨_, ⟨number, rfl, hnumber⟩, rfl⟩
    refine bind_eq_ok.2 ⟨(number, rest), rfl, ?_⟩
    cases number with
    | natural value =>
      rw [Numeric.toInteger?] at hnumber
      split at hnumber
      next hlt =>
        cases hnumber
        exact if_pos hlt
      next => cases hnumber
    | negative value =>
      cases hnumber
      rfl
    | double value => cases hnumber

variable {α : Type}

theorem fills_field {slot : Slot α} {reader : Reader slot.Content}
    (hreads : Reads reader slot.Means) : Fills slot (field slot.name reader slot.put) where
  name_eq := rfl
  read_eq_ok := by
    intro record next tokens rest
    constructor
    · intro h
      obtain ⟨⟨content, after⟩, hcontent, hnext⟩ := bind_eq_ok.1 h
      cases hnext
      obtain ⟨value, hmeans, htokens⟩ := (hreads _ _ _).1 hcontent
      exact ⟨value, content, hmeans, rfl, htokens⟩
    · rintro ⟨value, content, hmeans, rfl, rfl⟩
      exact bind_eq_ok.2 ⟨(content, rest), (hreads _ _ _).2 ⟨value, hmeans, rfl⟩, rfl⟩

theorem fills_defaultsFields : List.Forall₂ Fills Defaults.slots defaultsFields :=
  .cons (fills_field reads_single) <|
  .cons (fills_field reads_single) <|
  .cons (fills_field reads_single) <|
  .cons (fills_field reads_single) <|
  .cons (fills_field reads_single) <|
  .cons (fills_field reads_integer) <|
  .cons (fills_field reads_single) <|
  .cons (fills_field Reader.reads_text) <|
  .cons (fills_field Reader.reads_text) <|
  .cons (fills_field reads_single) .nil

theorem fills_fields : List.Forall₂ Fills slots fields :=
  .cons (fills_field (Reader.reads_record Defaults.slots_coordinates fills_defaultsFields {})) <|
  .cons (fills_field Reader.reads_optionalText) <|
  .cons (fills_field (Reader.reads_choice layers)) .nil

theorem read_eq_ok {text : String} {configuration : Configuration} :
    read text = .ok configuration ↔
      ∃ value, IsRecord slots {} value configuration ∧ Token.ofText text = value.tokens := by
  rw [read, mapError_eq_ok]
  exact Reader.whole_eq_ok (Reader.reads_record slots_coordinates fills_fields {})

theorem read_eq_ok_iff_overlay {text : String}
    (hobject : (Token.ofText text).head? = some .openObject) {configuration : Configuration} :
    read text = .ok configuration ↔
      ∃ members, Token.ofText text = (Value.object members).tokens ∧
        Overlay slots {} members configuration := by
  rw [read_eq_ok]
  constructor
  · rintro ⟨value, hrecord, htokens⟩
    cases value with
    | object members => exact ⟨members, htokens, hrecord⟩
    | list items =>
      rw [htokens] at hobject
      cases hobject
    | _ => exact hrecord.elim
  · rintro ⟨members, htokens, hoverlay⟩
    exact ⟨.object members, hoverlay, htokens⟩

theorem read_eq_ok_iff {text : String} {members : List (String × Value)}
    (htokens : Token.ofText text = (Value.object members).tokens) {configuration : Configuration} :
    read text = .ok configuration ↔ Overlay slots {} members configuration := by
  rw [read_eq_ok]
  constructor
  · rintro ⟨value, hrecord, hvalue⟩
    cases Value.tokens_injective (htokens.symm.trans hvalue)
    exact hrecord
  · intro hoverlay
    exact ⟨.object members, hoverlay, htokens⟩

theorem area_of_read {text : String} {failure : Failure} (hread : read text = .error failure) :
    failure.area = .serialization := by
  rw [read] at hread
  cases hwhole : Reader.whole (Reader.record fields {}) text with
  | ok configuration =>
    rw [hwhole] at hread
    cases hread
  | error fault =>
    rw [hwhole] at hread
    cases hread
    rfl

/-- The members are the same in another order, at either level. -/
inductive Rearranged : List (String × Value) → List (String × Value) → Prop where
  | outer {members others : List (String × Value)} (hperm : members.Perm others) :
    Rearranged members others
  | inner {before after members others : List (String × Value)} (hperm : members.Perm others) :
    Rearranged (before ++ ("defaults", .object members) :: after)
      (before ++ ("defaults", .object others) :: after)
  | trans {members middle others : List (String × Value)} :
    Rearranged members middle → Rearranged middle others → Rearranged members others

theorem Rearranged.overlay_iff {members others : List (String × Value)}
    (hrearranged : Rearranged members others) {base configuration : Configuration} :
    Overlay slots base members configuration ↔ Overlay slots base others configuration := by
  induction hrearranged with
  | outer hperm => exact Overlay.perm_iff hperm
  | @inner _ _ members others hperm =>
    have hmeans (defaults : Defaults) : defaultsSlot.Means (.object members) defaults ↔
        defaultsSlot.Means (.object others) defaults := Overlay.perm_iff hperm
    exact Overlay.exchange_iff slots_coordinates List.mem_cons_self hmeans
  | trans _ _ ihfirst ihsecond => exact ihfirst.trans ihsecond

/-- A name is repeated or unknown among the members, or among those of an object that is given as
the defaults. -/
def MisnamedAnywhere (members : List (String × Value)) : Prop :=
  Misnamed slots members ∨
    ∃ inner, ("defaults", Value.object inner) ∈ members ∧ Misnamed Defaults.slots inner

theorem overlay_defaults {members inner : List (String × Value)}
    {base configuration : Configuration} (hoverlay : Overlay slots base members configuration)
    (hinner : ("defaults", .object inner) ∈ members) :
    Overlay Defaults.slots {} inner configuration.defaults :=
  hoverlay.given _ List.mem_cons_self (.object inner) hinner

theorem not_misnamedAnywhere {members : List (String × Value)} {base configuration : Configuration}
    (hoverlay : Overlay slots base members configuration) : ¬ MisnamedAnywhere members := by
  rintro (hmisnamed | ⟨inner, hinner, hmisnamed⟩)
  · exact hoverlay.not_misnamed hmisnamed
  · exact (overlay_defaults hoverlay hinner).not_misnamed hmisnamed

end Configuration

namespace Disk

variable {α : Type} {formats : Formats α} {disk : Disk α} {path text : String}

def Holds (formats : Formats α) (disk : Disk α) (path text : String) : Prop :=
  ∃ content, disk.read path = .ok content ∧
    Text.decodeUtf8? (formats.bytes content).toList = some text

theorem configuration_of_holds (hholds : disk.Holds formats path text) :
    disk.configuration formats (some path) = Configuration.read text := by
  obtain ⟨content, hread, htext⟩ := hholds
  have hpath : path ≠ "" := by
    obtain ⟨names, hlocate⟩ := read_eq_ok.1 hread
    exact ne_empty_of_checkPath (locate_eq_ok.1 hlocate).1
  rw [configuration.eq_def]
  simp only [hread, htext]

/-- A file whose text starts as an object is accepted if the text is one and its members overlay the
defaults, at both levels. Else the text is at fault, as it is if a name is repeated or unknown
anywhere. The same members in another order give the same configuration. -/
theorem configuration_overlays (hholds : disk.Holds formats path text)
    (hobject : (Token.ofText text).head? = some .openObject) :
    (∀ configuration, disk.configuration formats (some path) = .ok configuration ↔
      ∃ members, Token.ofText text = (Value.object members).tokens ∧
        Overlay Configuration.slots {} members configuration ∧
        ∀ inner, ("defaults", .object inner) ∈ members →
          Overlay Defaults.slots {} inner configuration.defaults) ∧
    (∀ failure, disk.configuration formats (some path) = .error failure →
      failure.area = .serialization) ∧
    (∀ members, Token.ofText text = (Value.object members).tokens →
      Configuration.MisnamedAnywhere members →
        ∃ failure, disk.configuration formats (some path) = .error failure ∧
          failure.area = .serialization) ∧
    ∀ members others, Token.ofText text = (Value.object members).tokens →
      Configuration.Rearranged members others →
      ∀ (elsewhere : Disk α) (place rearranged : String),
        elsewhere.Holds formats place rearranged →
        Token.ofText rearranged = (Value.object others).tokens →
        ∀ configuration, disk.configuration formats (some path) = .ok configuration ↔
          elsewhere.configuration formats (some place) = .ok configuration := by
  rw [configuration_of_holds hholds]
  refine ⟨fun configuration => ?_, fun failure => Configuration.area_of_read,
    fun members htokens hmisnamed => ?_, ?_⟩
  · rw [Configuration.read_eq_ok_iff_overlay hobject]
    constructor
    · rintro ⟨members, htokens, hoverlay⟩
      exact ⟨members, htokens, hoverlay, fun inner => Configuration.overlay_defaults hoverlay⟩
    · rintro ⟨members, htokens, hoverlay, -⟩
      exact ⟨members, htokens, hoverlay⟩
  · cases hread : Configuration.read text with
    | error failure => exact ⟨failure, rfl, Configuration.area_of_read hread⟩
    | ok configuration =>
      have hoverlay := (Configuration.read_eq_ok_iff htokens).1 hread
      exact absurd hmisnamed (Configuration.not_misnamedAnywhere hoverlay)
  · intro members others htokens hrearranged elsewhere place rearranged hplace hothers configuration
    rw [configuration_of_holds hplace, Configuration.read_eq_ok_iff htokens,
      Configuration.read_eq_ok_iff hothers]
    exact hrearranged.overlay_iff

/-- Two files with the same members, in another order at both levels. -/
theorem configuration_overlays_of_swapped_members :
    let text := "\x7b\"layer\": \"under\", \"defaults\": \x7b\"leading\": 12.5, \"text_rise\": 2\x7d\x7d"
    let swapped := "\x7b\"defaults\": \x7b\"text_rise\": 2, \"leading\": 12.5\x7d, \"layer\": \"under\"\x7d"
    let content (text : String) : Content := .bytes ⟨(Text.encodeUtf8 text).toArray⟩
    let formats := Content.formats
    let disk : Disk Content :=
      { files := .ofList [(["a.json"], content text), (["b.json"], content swapped)] }
    let configuration : Configuration :=
      { defaults := { leading := 12.5, rise := 2.0 }, layer := .under }
    disk.Holds formats "a.json" text ∧ (Token.ofText text).head? = some .openObject ∧
      disk.configuration formats (some "a.json") = .ok configuration ∧
      disk.configuration formats (some "b.json") = .ok configuration := by
  intro text swapped content formats disk configuration
  have hholds : disk.Holds formats "a.json" text := ⟨content text, rfl, by decide +kernel⟩
  have hobject : (Token.ofText text).head? = some .openObject := by decide +kernel
  have hswapped : disk.Holds formats "b.json" swapped := ⟨content swapped, rfl, by decide +kernel⟩
  have hread : disk.configuration formats (some "a.json") = .ok configuration := by decide +kernel
  let leading : String × Value := ("leading", .number (.double 12.5))
  let rise : String × Value := ("text_rise", .number (.natural 2))
  let layer : String × Value := ("layer", .text "under")
  have htokens : Token.ofText text =
      (Value.object [layer, ("defaults", .object [leading, rise])]).tokens := by decide +kernel
  have hothers : Token.ofText swapped =
      (Value.object [("defaults", .object [rise, leading]), layer]).tokens := by decide +kernel
  have hrearranged : Configuration.Rearranged [layer, ("defaults", .object [leading, rise])]
      [("defaults", .object [rise, leading]), layer] :=
    .trans (.outer (.swap _ _ _)) (@Configuration.Rearranged.inner [] [layer] _ _ (.swap _ _ _))
  obtain ⟨-, -, -, hsame⟩ := configuration_overlays hholds hobject
  exact ⟨hholds, hobject, hread,
    (hsame _ _ htokens hrearranged disk "b.json" swapped hswapped hothers configuration).1 hread⟩

end Disk

end Overprint
