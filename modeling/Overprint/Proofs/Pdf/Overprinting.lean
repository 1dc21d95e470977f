import Overprint.Pdf.Attachment
import Overprint.Proofs.Pdf.Reference
import Overprint.Proofs.Success

/-!
# Printing over a document

What printing leaves of a document: every object stays where it is, but for the dictionaries of the
pages that are printed on, and of those every entry but the resources and the content. What is added
gets numbers that were not in use. Each step of the press keeps this.
-/

namespace Overprint.Pdf

/-- Dictionaries with the same entries, resources and content aside. -/
def Dictionary.SamePage (old new : Dictionary) : Prop :=
  ∀ key, key ≠ "Resources" → key ≠ "Contents" → get? key new = get? key old

namespace Document

/-- No object has a number above the last one in use. -/
def Numbered (document : Document) : Prop :=
  ∀ id object, document.objects.get? id = some object → id.number ≤ document.lastNumber

private theorem le_foldl_max {numbers : List Nat} {start : Nat} :
    start ≤ numbers.foldl max start ∧ ∀ number ∈ numbers, number ≤ numbers.foldl max start := by
  induction numbers generalizing start with
  | nil => exact ⟨Nat.le_refl start, fun _ hmem => absurd hmem List.not_mem_nil⟩
  | cons first rest ih =>
    obtain ⟨hstart, hrest⟩ := @ih (max start first)
    refine ⟨Nat.le_trans (Nat.le_max_left start first) hstart, fun number hmem => ?_⟩
    rcases List.mem_cons.1 hmem with rfl | hmem
    · exact Nat.le_trans (Nat.le_max_right start number) hstart
    · exact hrest number hmem

theorem numbered_ofObjects (objects : List (ObjectId × Object)) (trailer : Dictionary) :
    (ofObjects objects trailer).Numbered := by
  intro id object hget
  have hmem : (id, object) ∈ objects := SortedMap.mem_of_get?_ofList hget
  have hnumber : id.number ∈ objects.map (·.1.number) := List.mem_map.2 ⟨_, hmem, rfl⟩
  exact le_foldl_max.2 id.number hnumber

section Numbers

variable {document : Document} (hnumbered : document.Numbered)

include hnumbered

theorem Numbered.reserve : document.reserve.2.Numbered :=
  fun id object hget => Nat.le_succ_of_le (hnumbered id object hget)

theorem Numbered.put {id : ObjectId} (hid : id.number ≤ document.lastNumber) (object : Object) :
    (document.put id object).Numbered :=
  SortedMap.forall_get?_insert hnumbered hid

theorem Numbered.add (object : Object) : (document.add object).2.Numbered :=
  hnumbered.reserve.put (Nat.le_refl _) object

theorem Numbered.get?_of_lt {id : ObjectId} (hlt : document.lastNumber < id.number) :
    document.objects.get? id = none := by
  cases hget : document.objects.get? id with
  | none => rfl
  | some object =>
    have hle := hnumbered id object hget
    omega

end Numbers

theorem change_eq_ok {document after : Document} {id : ObjectId} {edit : Dictionary → Dictionary} :
    document.change id edit = .ok after ↔ ∃ place entries,
      document.locate id = .ok (place, .dictionary entries) ∧
      after = document.put place (.dictionary (edit entries)) := by
  constructor
  · intro hchange
    rw [change] at hchange
    split at hchange
    next => cases hchange
    next => cases hchange
    next place entries hlocate =>
      cases hchange
      exact ⟨place, entries, hlocate, rfl⟩
    next => cases hchange
  · rintro ⟨place, entries, hlocate, rfl⟩
    rw [change, hlocate]

/-- A document after printing over the pages whose dictionaries are in some places. -/
structure Overprints (pages : ObjectId → Prop) (source current : Document) : Prop where
  trailer : current.trailer = source.trailer
  last : source.lastNumber ≤ current.lastNumber
  kept : ∀ id : ObjectId, id.number ≤ source.lastNumber → ¬ pages id →
    current.objects.get? id = source.objects.get? id
  page : ∀ id, pages id → ∃ old new, source.objects.get? id = some (.dictionary old) ∧
    current.objects.get? id = some (.dictionary new) ∧ Dictionary.SamePage old new

namespace Overprints

variable {pages : ObjectId → Prop} {source current after : Document}

theorem refl (hpages : ∀ id, pages id → ∃ old, source.objects.get? id = some (.dictionary old)) :
    Overprints pages source source where
  trailer := rfl
  last := Nat.le_refl _
  kept _ _ _ := rfl
  page id hid := by
    obtain ⟨old, hold⟩ := hpages id hid
    exact ⟨old, old, hold, hold, fun _ _ _ => rfl⟩

theorem untouched (document : Document) : Overprints (fun _ => False) document document :=
  .refl fun _ hfalse => hfalse.elim

section Fresh

variable (hnumbered : source.Numbered) (hover : Overprints pages source current)

include hnumbered hover

theorem not_page {id : ObjectId} (hfresh : source.lastNumber < id.number) : ¬ pages id := by
  intro hid
  obtain ⟨old, -, hold, -⟩ := hover.page id hid
  have hle := hnumbered id _ hold
  omega

theorem put {id : ObjectId} (hfresh : source.lastNumber < id.number) (object : Object) :
    Overprints pages source (current.put id object) where
  trailer := hover.trailer
  last := hover.last
  kept other hother hpage := by
    have hne : other ≠ id := by
      rintro rfl
      omega
    rw [Document.put, SortedMap.get?_insert_of_ne hne]
    exact hover.kept other hother hpage
  page other hother := by
    obtain ⟨old, new, hold, hnew, hsame⟩ := hover.page other hother
    have hne : other ≠ id := by
      rintro rfl
      exact not_page hnumbered hover hfresh hother
    refine ⟨old, new, hold, ?_, hsame⟩
    rw [Document.put, SortedMap.get?_insert_of_ne hne]
    exact hnew

omit hnumbered in
theorem reserve : Overprints pages source current.reserve.2 ∧
    source.lastNumber < current.reserve.1.number := by
  have hlast := hover.last
  refine ⟨⟨hover.trailer, ?_, hover.kept, hover.page⟩, ?_⟩
  · show source.lastNumber ≤ current.lastNumber + 1
    omega
  · show source.lastNumber < current.lastNumber + 1
    omega

theorem add (object : Object) : Overprints pages source (current.add object).2 ∧
    source.lastNumber < (current.add object).1.number := by
  obtain ⟨hreserved, hfresh⟩ := hover.reserve
  exact ⟨hreserved.put hnumbered hfresh object, hfresh⟩

/-- What is no dictionary stays where it is, as it is no page. -/
theorem get?_of_not_dictionary {id : ObjectId} {object : Object}
    (hget : source.objects.get? id = some object) (hobject : object.toDictionary? = none) :
    current.objects.get? id = some object := by
  have hpage : ¬ pages id := by
    intro hid
    obtain ⟨old, -, hold, -⟩ := hover.page id hid
    rw [hget] at hold
    cases hold
    cases hobject
  rw [hover.kept id (hnumbered id _ hget) hpage, hget]

theorem reference {id target : ObjectId}
    (hget : source.objects.get? id = some (.reference target)) :
    current.objects.get? id = some (.reference target) :=
  hover.get?_of_not_dictionary hnumbered hget rfl

theorem locate {id place : ObjectId} {old : Dictionary}
    (hlocate : source.locate id = .ok (place, .dictionary old)) (hplace : pages place) :
    ∃ new, current.locate id = .ok (place, .dictionary new) ∧ Dictionary.SamePage old new := by
  obtain ⟨first, new, hfirst, hnew, hsame⟩ := hover.page place hplace
  rw [(get?_of_locate hlocate).1] at hfirst
  cases hfirst
  refine ⟨new, ?_, hsame⟩
  exact locate_of_references (fun _ _ => hover.reference hnumbered) hnew rfl hlocate

theorem change {id place : ObjectId} {old : Dictionary} {edit : Dictionary → Dictionary}
    (hlocate : source.locate id = .ok (place, .dictionary old)) (hplace : pages place)
    (hedit : ∀ entries, Dictionary.SamePage entries (edit entries))
    (hchange : current.change id edit = .ok after) : Overprints pages source after := by
  obtain ⟨entries, hcurrent, hsame⟩ := hover.locate hnumbered hlocate hplace
  obtain ⟨_, _, hfound, rfl⟩ := change_eq_ok.1 hchange
  rw [hcurrent] at hfound
  cases hfound
  refine ⟨hover.trailer, hover.last, fun other hother hpage => ?_, fun other hother => ?_⟩
  · have hne : other ≠ place := by
      rintro rfl
      exact hpage hplace
    rw [Document.put, SortedMap.get?_insert_of_ne hne]
    exact hover.kept other hother hpage
  · by_cases hne : other = place
    · subst hne
      refine ⟨old, edit entries, (get?_of_locate hlocate).1, SortedMap.get?_insert_self .., ?_⟩
      exact fun key hresources hcontents =>
        (hedit entries key hresources hcontents).trans (hsame key hresources hcontents)
    · obtain ⟨first, new, hfirst, hnew, hother⟩ := hover.page other hother
      refine ⟨first, new, hfirst, ?_, hother⟩
      rw [Document.put, SortedMap.get?_insert_of_ne hne]
      exact hnew

theorem addPicture (picture : Picture) :
    Overprints pages source (current.addPicture picture).2 := by
  rw [Document.addPicture]
  split
  · exact (hover.add hnumbered _).1
  · exact (hover.add hnumbered _).1
  · exact ((hover.add hnumbered _).1.add hnumbered _).1

theorem embedFont {id : ObjectId} (hfresh : source.lastNumber < id.number) (font : EmbeddedFont)
    (uses : GlyphUses) : Overprints pages source (current.embedFont id font uses) := by
  have hadd {document : Document} (hdocument : Overprints pages source document)
      (object : Object) : Overprints pages source (document.add object).2 :=
    (hdocument.add hnumbered object).1
  exact (hadd (hadd (hadd (hadd hover _) _) _) _).put hnumbered hfresh _

end Fresh

end Overprints

end Document

namespace Press

/-- The resources of a page with the names of a stamp. -/
def mergedResources (press : Press) (page : ObjectId) (stamp : Stamp) : Dictionary :=
  press.document.resources page
    |> addNames press.document "Font" stamp.fonts
    |> addNames press.document "XObject" stamp.pictures

/-- The number of a stamp's content, when it has been put into the document. -/
def stampContent (press : Press) (stamp : Stamp) : ObjectId × Press :=
  press.addContent (contentOf stamp.operations)

/-- The content of a page with a stamp, when all its parts are in the document. -/
def stampedContents (press : Press) (page : ObjectId) (stamp : Stamp) : List Object × Press :=
  let (content, press) := press.stampContent stamp
  press.arrange (press.document.contentEntries page) content

def stampedPage (resources : Dictionary) (contents : List Object) (entries : Dictionary) :
    Dictionary :=
  entries
    |> Dictionary.set "Resources" (.dictionary resources)
    |> Dictionary.set "Contents" (.array contents)

theorem attach_eq (press : Press) (page : ObjectId) (stamp : Stamp) :
    press.attach page stamp =
      let (contents, placed) := press.stampedContents page stamp
      let resources := (press.stampContent stamp).2.mergedResources page stamp
      match placed.document.change page (stampedPage resources contents) with
      | .ok document => (.ok (), { placed with document })
      | .error fault => (.error (.pageNotWritable page.number page.generation fault), placed) :=
  rfl

theorem attach_of_change {press : Press} {page : ObjectId} {stamp : Stamp} {document : Document}
    (hchange : (press.stampedContents page stamp).2.document.change page
      (stampedPage ((press.stampContent stamp).2.mergedResources page stamp)
        (press.stampedContents page stamp).1) = .ok document) :
    press.attach page stamp = (.ok (), { (press.stampedContents page stamp).2 with document }) := by
  rw [attach_eq]
  dsimp only
  rw [hchange]

theorem get?_stampedPage (key : String) (resources : Dictionary) (contents : List Object)
    (entries : Dictionary) : Dictionary.get? key (stampedPage resources contents entries) =
      if "Contents" = key then some (.array contents)
      else if "Resources" = key then some (.dictionary resources)
      else Dictionary.get? key entries := by
  rw [stampedPage, Dictionary.get?_set, Dictionary.get?_set]

theorem samePage_stampedPage (resources : Dictionary) (contents : List Object)
    (entries : Dictionary) : Dictionary.SamePage entries (stampedPage resources contents entries) := by
  intro key hresources hcontents
  rw [get?_stampedPage, if_neg (Ne.symm hcontents), if_neg (Ne.symm hresources)]

end Press

section Content

variable {pages : ObjectId → Prop} {source : Document} {press : Press}
  (hnumbered : source.Numbered) (hover : source.Overprints pages press.document)

include hnumbered hover

theorem Press.addContent_overprints (bytes : List UInt8) :
    source.Overprints pages (press.addContent bytes).2.document :=
  (hover.add hnumbered _).1

theorem Press.useWrappers_overprints : source.Overprints pages press.useWrappers.2.document := by
  cases hwrappers : press.wrappers? with
  | some wrappers =>
    simp only [Press.useWrappers, hwrappers]
    exact hover
  | none =>
    simp only [Press.useWrappers, hwrappers]
    have hsave := press.addContent_overprints hnumbered hover (ascii "q\n")
    exact Press.addContent_overprints hnumbered hsave (ascii "\nQ\n")

theorem Press.arrange_overprints (existing : List Object) (stamp : ObjectId) :
    source.Overprints pages (press.arrange existing stamp).2.document := by
  rw [Press.arrange]
  split
  · exact hover
  · split
    · exact hover
    · exact press.useWrappers_overprints hnumbered hover

theorem Press.stampedContents_overprints (page : ObjectId) (stamp : Stamp) :
    source.Overprints pages (press.stampedContents page stamp).2.document :=
  Press.arrange_overprints hnumbered (press.addContent_overprints hnumbered hover _) _ _

theorem Press.useFont_overprints (font : Font) :
    source.Overprints pages (press.useFont font).2.document := by
  cases hget : press.fonts.get? font.key with
  | some entry =>
    simp only [Press.useFont, hget]
    exact hover
  | none =>
    simp only [Press.useFont, hget]
    cases font with
    | standard standard => exact (hover.add hnumbered _).1
    | embedded embedded => exact hover.reserve.1

theorem Press.encodeText_overprints (font : Font) (text : String) :
    source.Overprints pages (press.encodeText font text).2.document := by
  have hused := press.useFont_overprints hnumbered hover font
  simp only [Press.encodeText]
  split <;> exact hused

theorem Press.usePicture_overprints (picture : Picture) :
    source.Overprints pages (press.usePicture picture).2.document := by
  cases hget : press.pictures.get? (Text.Path.components picture.path) with
  | some entry =>
    simp only [Press.usePicture, hget]
    exact hover
  | none =>
    simp only [Press.usePicture, hget]
    exact hover.addPicture hnumbered picture

end Content

theorem Canvas.record_overprints {pages : ObjectId → Prop} {source : Document}
    {canvas after : Canvas} {call : Drawing.Call} (hnumbered : source.Numbered)
    (hover : source.Overprints pages canvas.press.document)
    (hrecord : canvas.record call = .ok after) :
    source.Overprints pages after.press.document := by
  cases call with
  | font font size =>
    cases hrecord
    exact Press.useFont_overprints hnumbered hover font
  | showText text =>
    rw [Canvas.record, Canvas.showText] at hrecord
    split at hrecord
    · cases hrecord
    next font hfont =>
      cases hrecord
      exact Press.encodeText_overprints hnumbered hover font text
  | picture picture box =>
    cases hrecord
    exact Press.usePicture_overprints hnumbered hover picture
  | _ =>
    cases hrecord
    exact hover

theorem Press.register_arrange (press : Press) (existing : List Object) (stamp : ObjectId) :
    (press.arrange existing stamp).2.fonts = press.fonts ∧
      (press.arrange existing stamp).2.pictures = press.pictures := by
  rw [Press.arrange]
  split
  · exact ⟨rfl, rfl⟩
  · split
    · exact ⟨rfl, rfl⟩
    · rw [Press.useWrappers]
      cases press.wrappers? <;> exact ⟨rfl, rfl⟩

/-- A press on which a document is printed over. The numbers of its fonts are new, as embedded fonts
are written in the end. -/
structure Press.Overprints (pages : ObjectId → Prop) (source : Document) (press : Press) :
    Prop where
  document : Document.Overprints pages source press.document
  fonts : ∀ entry ∈ press.fonts.values, source.lastNumber < entry.id.number

namespace Press.Overprints

variable {pages : ObjectId → Prop} {source : Document} {press : Press}

section Steps

variable (hnumbered : source.Numbered) (hover : Overprints pages source press)

include hnumbered hover

omit hnumbered in
theorem insertFont {document : Document} (key : String) {entry : FontEntry}
    (hdocument : Document.Overprints pages source document)
    (hentry : source.lastNumber < entry.id.number) :
    Overprints pages source { press with document, fonts := press.fonts.insert key entry } where
  document := hdocument
  fonts other hmem := by
    rcases SortedMap.mem_values_insert hmem with rfl | hmem
    · exact hentry
    · exact hover.fonts other hmem

theorem useFont (font : Font) : Overprints pages source (press.useFont font).2 ∧
    source.lastNumber < (press.useFont font).1.id.number := by
  cases hget : press.fonts.get? font.key with
  | some entry =>
    simp only [Press.useFont, hget]
    exact ⟨hover, hover.fonts entry (SortedMap.mem_values_of_get? hget)⟩
  | none =>
    simp only [Press.useFont, hget]
    cases font with
    | standard standard =>
      obtain ⟨hdocument, hfresh⟩ :=
        hover.document.add hnumbered (.dictionary (standardFont standard))
      exact ⟨hover.insertFont _ hdocument hfresh, hfresh⟩
    | embedded embedded =>
      obtain ⟨hdocument, hfresh⟩ := hover.document.reserve
      exact ⟨hover.insertFont _ hdocument hfresh, hfresh⟩

theorem encodeText (font : Font) (text : String) :
    Overprints pages source (press.encodeText font text).2 := by
  obtain ⟨hused, hfresh⟩ := hover.useFont hnumbered font
  simp only [Press.encodeText]
  split
  · exact hused
  · exact hused.insertFont _ hused.document hfresh

theorem usePicture (picture : Picture) :
    Overprints pages source (press.usePicture picture).2 := by
  cases hget : press.pictures.get? (Text.Path.components picture.path) with
  | some entry =>
    simp only [Press.usePicture, hget]
    exact hover
  | none =>
    simp only [Press.usePicture, hget]
    exact ⟨hover.document.addPicture hnumbered picture, hover.fonts⟩

/-- Attaching a stamp to a page changes the page's dictionary and nothing else that was there. -/
theorem attach {page place : ObjectId} {old : Dictionary} {stamp : Stamp}
    (hlocate : source.locate page = .ok (place, .dictionary old)) (hplace : pages place)
    (hattach : (press.attach page stamp).1 = .ok ()) :
    Overprints pages source (press.attach page stamp).2 := by
  have hdocument := press.stampedContents_overprints hnumbered hover.document page stamp
  have hfonts : (press.stampedContents page stamp).2.fonts = press.fonts :=
    (Press.register_arrange _ _ _).1
  rw [Press.attach_eq] at hattach ⊢
  dsimp only at hattach ⊢
  split at hattach
  next document hchange =>
    refine ⟨hdocument.change hnumbered hlocate hplace ?_ hchange, ?_⟩
    · exact Press.samePage_stampedPage _ _
    · rw [hfonts]
      exact hover.fonts
  next => cases hattach

omit hover in
theorem record {canvas after : Canvas} {call : Drawing.Call}
    (hover : Overprints pages source canvas.press) (hrecord : canvas.record call = .ok after) :
    Overprints pages source after.press := by
  cases call with
  | font font size =>
    cases hrecord
    exact (hover.useFont hnumbered font).1
  | showText text =>
    rw [Canvas.record, Canvas.showText] at hrecord
    split at hrecord
    · cases hrecord
    next font hfont =>
      cases hrecord
      exact hover.encodeText hnumbered font text
  | picture picture box =>
    cases hrecord
    exact hover.usePicture hnumbered picture
  | _ =>
    cases hrecord
    exact hover

theorem finish : Document.Overprints pages source press.finish := by
  rw [Press.finish]
  refine List.foldlRecOn (motive := Document.Overprints pages source) _ _ hover.document
    fun document hdocument entry hmem => ?_
  split
  · exact hdocument
  · exact hdocument.embedFont hnumbered (hover.fonts entry hmem) _ _

end Steps

end Press.Overprints

end Overprint.Pdf
