import Overprint.Proofs.Pdf.Overprinting

/-!
# Documents that refer to nothing beyond themselves

A document is closed if no object has a number above the last one in use, and no object refers to such
a number. What is added to a closed document refers to what is there, so it stays closed, and a new
number is one that nothing has mentioned before.
-/

namespace Overprint.Pdf

/-- All references in an object have numbers up to a bound. -/
def Object.Within (last : Nat) : Object → Prop
  | .reference id => id.number ≤ last
  | .array items => ∀ item ∈ items, item.Within last
  | .dictionary entries | .stream entries _ => ∀ entry ∈ entries, entry.2.Within last
  | _ => True
termination_by object => object
-- The value of an entry is a part of a part, so its size is compared in two steps.
decreasing_by
  · decreasing_tactic
  all_goals
    rename_i hmem
    have hlt := List.sizeOf_lt_of_mem hmem
    obtain ⟨key, value⟩ := entry
    simp only [Prod.mk.sizeOf_spec, Object.dictionary.sizeOf_spec, Object.stream.sizeOf_spec] at *
    omega

theorem Object.Within.mono {last later : Nat} (hle : last ≤ later) {object : Object}
    (hwithin : object.Within last) : object.Within later := by
  fun_induction Object.Within later object with
  | case1 id =>
    rw [Object.Within] at hwithin
    omega
  | case2 items ih =>
    rw [Object.Within] at hwithin
    exact fun item hmem => ih item hmem (hwithin item hmem)
  | case3 entries ih | case4 entries _ ih =>
    rw [Object.Within] at hwithin
    exact fun entry hmem => ih entry hmem (hwithin entry hmem)
  | case5 => trivial

namespace Dictionary

variable {key : String} {value : Object} {entries : Dictionary}

theorem mem_of_get? (hget : get? key entries = some value) : (key, value) ∈ entries := by
  induction entries with
  | nil => cases hget
  | cons entry rest ih =>
    rw [get?] at hget
    split at hget
    next hkey =>
      cases hget
      rw [← hkey]
      exact List.mem_cons_self
    next => exact List.mem_cons_of_mem entry (ih hget)

theorem mem_set {entry : String × Object} (hmem : entry ∈ set key value entries) :
    entry = (key, value) ∨ entry ∈ entries := by
  induction entries with
  | nil => exact .inl (List.mem_singleton.1 hmem)
  | cons head rest ih =>
    rw [set] at hmem
    split at hmem
    · rcases List.mem_cons.1 hmem with rfl | hmem
      · exact .inl rfl
      · exact .inr (List.mem_cons_of_mem head hmem)
    · rcases List.mem_cons.1 hmem with rfl | hmem
      · exact .inr List.mem_cons_self
      · exact (ih hmem).imp_right (List.mem_cons_of_mem head)

def Within (last : Nat) (entries : Dictionary) : Prop :=
  ∀ entry ∈ entries, entry.2.Within last

theorem within_nil (last : Nat) : Within last [] :=
  fun _ hmem => absurd hmem List.not_mem_nil

theorem Within.append {last : Nat} {others : Dictionary} (hwithin : Within last entries)
    (hothers : Within last others) : Within last (entries ++ others) := by
  intro entry hmem
  rcases List.mem_append.1 hmem with hmem | hmem
  · exact hwithin entry hmem
  · exact hothers entry hmem

theorem Within.get? {last : Nat} (hwithin : Within last entries)
    (hget : get? key entries = some value) : value.Within last :=
  hwithin _ (mem_of_get? hget)

theorem Within.set {last : Nat} (hwithin : Within last entries) (hvalue : value.Within last) :
    Within last (set key value entries) := by
  intro entry hmem
  rcases mem_set hmem with rfl | hmem
  · exact hvalue
  · exact hwithin entry hmem

end Dictionary

namespace Object

variable {last : Nat}

theorem within_dictionary {entries : Dictionary} :
    (dictionary entries).Within last ↔ Dictionary.Within last entries := by
  rw [Within]
  exact Iff.rfl

theorem within_stream {entries : Dictionary} {data : List UInt8} :
    (stream entries data).Within last ↔ Dictionary.Within last entries := by
  rw [Within]
  exact Iff.rfl

theorem within_array {items : List Object} :
    (array items).Within last ↔ ∀ item ∈ items, item.Within last := by
  rw [Within]

theorem within_reference {id : ObjectId} : (reference id).Within last ↔ id.number ≤ last := by
  rw [Within]

theorem Within.toDictionary? {object : Object} {entries : Dictionary}
    (hwithin : object.Within last) (hentries : object.toDictionary? = some entries) :
    Dictionary.Within last entries := by
  cases object with
  | dictionary other =>
    cases hentries
    exact within_dictionary.1 hwithin
  | _ => cases hentries

end Object

namespace Document

/-- No object has, and none refers to, a number above the last one in use. -/
structure Closed (document : Document) : Prop where
  numbered : document.Numbered
  within : ∀ id object, document.objects.get? id = some object →
    object.Within document.lastNumber

namespace Closed

variable {document : Document} {id page : ObjectId} {object : Object}

section Reading

variable (hclosed : document.Closed)

include hclosed

theorem object? (hobject : document.object? id = some object) :
    object.Within document.lastNumber := by
  rw [Document.object?] at hobject
  split at hobject
  next place found hlocate =>
    cases hobject
    exact hclosed.within place object (get?_of_locate hlocate).1
  next => cases hobject

theorem dictionary? {entries : Dictionary} (hentries : document.dictionary? id = some entries) :
    Dictionary.Within document.lastNumber entries := by
  obtain ⟨object, hobject, hdictionary⟩ := Option.bind_eq_some_iff.1 hentries
  exact (hclosed.object? hobject).toDictionary? hdictionary

theorem resolve (hobject : object.Within document.lastNumber) :
    (document.resolve object).Within document.lastNumber := by
  cases object with
  | reference target =>
    rw [Document.resolve]
    cases hfound : document.object? target with
    | none => exact hobject
    | some found => exact hclosed.object? hfound
  | _ => exact hobject

theorem inheritedFrom? {key : String} {node : Dictionary} {limit : Nat}
    (hnode : Dictionary.Within document.lastNumber node)
    (hfound : document.inheritedFrom? key node limit = some object) :
    object.Within document.lastNumber := by
  induction limit generalizing node with
  | zero => cases hfound
  | succ limit ih =>
    rw [Document.inheritedFrom?] at hfound
    split at hfound
    next value hvalue =>
      cases hfound
      exact hclosed.resolve (hnode.get? hvalue)
    next =>
      split at hfound
      next parent hparent =>
        obtain ⟨above, habove, hfound⟩ := Option.bind_eq_some_iff.1 hfound
        exact ih (hclosed.dictionary? habove) hfound
      next => cases hfound

theorem resources (page : ObjectId) :
    Dictionary.Within document.lastNumber (document.resources page) := by
  rw [Document.resources]
  cases hinherited : document.inherited? page "Resources" with
  | none => exact Dictionary.within_nil _
  | some object =>
    obtain ⟨node, hnode, hfound⟩ := Option.bind_eq_some_iff.1 hinherited
    have hobject := hclosed.inheritedFrom? (hclosed.dictionary? hnode) hfound
    cases hentries : object.toDictionary? with
    | none => simpa [hentries] using Dictionary.within_nil document.lastNumber
    | some entries => simpa [hentries] using hobject.toDictionary? hentries

theorem contentEntries {item : Object} (hmem : item ∈ document.contentEntries page) :
    item.Within document.lastNumber := by
  rw [Document.contentEntries] at hmem
  split at hmem
  next items hcontents =>
    obtain ⟨node, hnode, hitems⟩ := Option.bind_eq_some_iff.1 hcontents
    exact Object.within_array.1 ((hclosed.dictionary? hnode).get? hitems) item hmem
  next target hcontents =>
    obtain ⟨node, hnode, hreference⟩ := Option.bind_eq_some_iff.1 hcontents
    split at hmem
    next items hitems => exact Object.within_array.1 (hclosed.object? hitems) item hmem
    next =>
      cases List.mem_singleton.1 hmem
      exact (hclosed.dictionary? hnode).get? hreference
  next => cases hmem

end Reading

section Writing

theorem reserve (hclosed : document.Closed) : document.reserve.2.Closed where
  numbered := hclosed.numbered.reserve
  within other object hget := (hclosed.within other object hget).mono (Nat.le_succ _)

theorem put (hclosed : document.Closed) (hid : id.number ≤ document.lastNumber)
    (hobject : object.Within document.lastNumber) : (document.put id object).Closed where
  numbered := hclosed.numbered.put hid object
  within := SortedMap.forall_get?_insert hclosed.within hobject

theorem add (hclosed : document.Closed) (hobject : object.Within (document.lastNumber + 1)) :
    (document.add object).2.Closed :=
  hclosed.reserve.put (Nat.le_refl _) hobject

theorem addPicture (hclosed : document.Closed) (picture : Picture) :
    (document.addPicture picture).2.Closed ∧
      document.lastNumber ≤ (document.addPicture picture).2.lastNumber ∧
      (document.addPicture picture).1.number ≤ (document.addPicture picture).2.lastNumber := by
  have hentries (last : Nat) (colors : String) :
      Dictionary.Within last (pictureEntries picture colors) := by
    simp [Dictionary.Within, pictureEntries, Object.Within]
  have hadd {other : Document} (hother : other.Closed) (entries : Dictionary)
      (hwithin : Dictionary.Within (other.lastNumber + 1) entries) (data : List UInt8) :
      (other.add (.stream entries data)).2.Closed :=
    hother.add (Object.within_stream.2 hwithin)
  rw [Document.addPicture]
  split
  next bytes grey hdata =>
    refine ⟨hadd hclosed _ ?_ bytes, Nat.le_succ _, Nat.le_refl _⟩
    exact (hentries _ _).append (by simp [Dictionary.Within, Object.Within])
  next rgb hdata => exact ⟨hadd hclosed _ (hentries _ _) rgb, Nat.le_succ _, Nat.le_refl _⟩
  next rgb alpha hdata =>
    have hmask := hadd hclosed _ (hentries _ "DeviceGray") alpha
    refine ⟨hadd hmask _ ?_ rgb, Nat.le_add_right _ 2, Nat.le_refl _⟩
    refine (hentries _ _).append fun entry hmem => ?_
    cases List.mem_singleton.1 hmem
    exact Object.within_reference.2 (Nat.le_succ _)

end Writing

end Closed

end Document

def IsFontName (name : String) : Prop :=
  ∃ number : Nat, name = s!"PdfStampF{number}"

def IsPictureName (name : String) : Prop :=
  ∃ number : Nat, name = s!"PdfStampI{number}"

/-- A press whose document is closed, and which hands out only numbers in use, under its own names. -/
structure Press.Orderly (press : Press) : Prop where
  document : press.document.Closed
  fonts : ∀ entry ∈ press.fonts.values,
    entry.id.number ≤ press.document.lastNumber ∧ IsFontName entry.name
  pictures : ∀ entry ∈ press.pictures.values,
    entry.2.number ≤ press.document.lastNumber ∧ IsPictureName entry.1
  wrappers : ∀ wrappers ∈ press.wrappers?, wrappers.1.number ≤ press.document.lastNumber ∧
    wrappers.2.number ≤ press.document.lastNumber

namespace Press

variable {press : Press}

theorem orderly_start {document : Document} (hclosed : document.Closed) (layer : Layer) :
    Orderly { document, layer } where
  document := hclosed
  fonts _ hmem := by cases hmem
  pictures _ hmem := by cases hmem
  wrappers _ hmem := by cases hmem

namespace Orderly

variable (horderly : press.Orderly)

include horderly

theorem withDocument {document : Document} (hclosed : document.Closed)
    (hlast : press.document.lastNumber ≤ document.lastNumber) :
    Orderly { press with document } where
  document := hclosed
  fonts entry hmem := (horderly.fonts entry hmem).imp_left (Nat.le_trans · hlast)
  pictures entry hmem := (horderly.pictures entry hmem).imp_left (Nat.le_trans · hlast)
  wrappers wrappers hmem :=
    (horderly.wrappers wrappers hmem).imp (Nat.le_trans · hlast) (Nat.le_trans · hlast)

theorem insertFont (key : String) {entry : FontEntry}
    (hid : entry.id.number ≤ press.document.lastNumber) (hname : IsFontName entry.name) :
    Orderly { press with fonts := press.fonts.insert key entry } where
  document := horderly.document
  fonts other hmem := by
    rcases SortedMap.mem_values_insert hmem with rfl | hmem
    · exact ⟨hid, hname⟩
    · exact horderly.fonts other hmem
  pictures := horderly.pictures
  wrappers := horderly.wrappers

theorem useFont (font : Font) : (press.useFont font).2.Orderly ∧
    press.document.lastNumber ≤ (press.useFont font).2.document.lastNumber ∧
    (press.useFont font).1.id.number ≤ (press.useFont font).2.document.lastNumber ∧
    IsFontName (press.useFont font).1.name := by
  cases hget : press.fonts.get? font.key with
  | some entry =>
    simp only [Press.useFont, hget]
    exact ⟨horderly, Nat.le_refl _, horderly.fonts entry (SortedMap.mem_values_of_get? hget)⟩
  | none =>
    simp only [Press.useFont, hget]
    have hname : IsFontName s!"PdfStampF{press.fonts.size + 1}" := ⟨_, rfl⟩
    cases font with
    | standard standard =>
      have hclosed : (press.document.add (.dictionary (standardFont standard))).2.Closed := by
        refine horderly.document.add (Object.within_dictionary.2 ?_)
        refine Dictionary.Within.append (by simp [Dictionary.Within, Object.Within]) ?_
        split <;> simp [Dictionary.Within, Object.Within]
      have hgrown := horderly.withDocument hclosed (Nat.le_succ _)
      exact ⟨hgrown.insertFont _ (Nat.le_refl _) hname, Nat.le_succ _, Nat.le_refl _, hname⟩
    | embedded embedded =>
      have hgrown := horderly.withDocument horderly.document.reserve (Nat.le_succ _)
      exact ⟨hgrown.insertFont _ (Nat.le_refl _) hname, Nat.le_succ _, Nat.le_refl _, hname⟩

theorem encodeText (font : Font) (text : String) : (press.encodeText font text).2.Orderly ∧
    press.document.lastNumber ≤ (press.encodeText font text).2.document.lastNumber := by
  obtain ⟨hused, hlast, hid, hname⟩ := horderly.useFont font
  simp only [Press.encodeText]
  split
  · exact ⟨hused, hlast⟩
  · exact ⟨hused.insertFont _ hid hname, hlast⟩

theorem usePicture (picture : Picture) : (press.usePicture picture).2.Orderly ∧
    press.document.lastNumber ≤ (press.usePicture picture).2.document.lastNumber ∧
    (press.usePicture picture).1.2.number ≤
      (press.usePicture picture).2.document.lastNumber ∧
    IsPictureName (press.usePicture picture).1.1 := by
  cases hget : press.pictures.get? (Text.Path.components picture.path) with
  | some entry =>
    simp only [Press.usePicture, hget]
    exact ⟨horderly, Nat.le_refl _,
      horderly.pictures entry (SortedMap.mem_values_of_get? hget)⟩
  | none =>
    simp only [Press.usePicture, hget]
    have hname : IsPictureName s!"PdfStampI{press.pictures.size + 1}" := ⟨_, rfl⟩
    obtain ⟨hclosed, hlast, hid⟩ := horderly.document.addPicture picture
    have hgrown := horderly.withDocument hclosed hlast
    refine ⟨⟨hclosed, hgrown.fonts, fun other hmem => ?_, hgrown.wrappers⟩, hlast, hid, hname⟩
    rcases SortedMap.mem_values_insert hmem with rfl | hmem
    · exact ⟨hid, hname⟩
    · exact hgrown.pictures other hmem

theorem addContent (bytes : List UInt8) : (press.addContent bytes).2.Orderly :=
  horderly.withDocument
    (horderly.document.add (Object.within_stream.2 (Dictionary.within_nil _))) (Nat.le_succ _)

theorem useWrappers : press.useWrappers.2.Orderly ∧
    press.document.lastNumber ≤ press.useWrappers.2.document.lastNumber ∧
    press.useWrappers.1.1.number ≤ press.useWrappers.2.document.lastNumber ∧
    press.useWrappers.1.2.number ≤ press.useWrappers.2.document.lastNumber := by
  cases hwrappers : press.wrappers? with
  | some wrappers =>
    simp only [Press.useWrappers, hwrappers]
    exact ⟨horderly, Nat.le_refl _, horderly.wrappers wrappers hwrappers⟩
  | none =>
    simp only [Press.useWrappers, hwrappers]
    have hboth := (horderly.addContent (ascii "q\n")).addContent (ascii "\nQ\n")
    have hids : press.document.lastNumber + 1 ≤ press.document.lastNumber + 2 := by omega
    refine ⟨⟨hboth.document, hboth.fonts, hboth.pictures, fun wrappers hmem => ?_⟩,
      Nat.le_add_right _ 2, hids, Nat.le_refl _⟩
    cases hmem
    exact ⟨hids, Nat.le_refl _⟩

theorem arrange {existing : List Object} {stamp : ObjectId}
    (hexisting : ∀ item ∈ existing, item.Within press.document.lastNumber)
    (hstamp : stamp.number ≤ press.document.lastNumber) :
    (press.arrange existing stamp).2.Orderly ∧
      press.document.lastNumber ≤ (press.arrange existing stamp).2.document.lastNumber ∧
      ∀ item ∈ (press.arrange existing stamp).1,
        item.Within (press.arrange existing stamp).2.document.lastNumber := by
  have hreference {id : ObjectId} {last : Nat} (hid : id.number ≤ last) :
      (Object.reference id).Within last := Object.within_reference.2 hid
  rw [Press.arrange]
  split
  · refine ⟨horderly, Nat.le_refl _, fun item hmem => ?_⟩
    rcases List.mem_cons.1 hmem with rfl | hmem
    · exact hreference hstamp
    · exact hexisting item hmem
  · split
    · refine ⟨horderly, Nat.le_refl _, fun item hmem => ?_⟩
      cases List.mem_singleton.1 hmem
      exact hreference hstamp
    · obtain ⟨hwrapped, hlast, hsave, hrestore⟩ := horderly.useWrappers
      refine ⟨hwrapped, hlast, fun item hmem => ?_⟩
      simp only [List.cons_append, List.mem_cons, List.mem_append, List.not_mem_nil,
        or_false] at hmem
      rcases hmem with rfl | hmem | rfl | rfl
      · exact hreference hsave
      · exact (hexisting item hmem).mono hlast
      · exact hreference hrestore
      · exact hreference (Nat.le_trans hstamp hlast)

end Orderly

end Press

section Attaching

variable {press : Press}

theorem Document.Closed.addNames {document : Document} (hclosed : document.Closed)
    {names : SortedMap String ObjectId}
    (hnames : ∀ name id, names.get? name = some id → id.number ≤ document.lastNumber)
    (category : String) {resources : Dictionary}
    (hresources : Dictionary.Within document.lastNumber resources) :
    Dictionary.Within document.lastNumber (addNames document category names resources) := by
  rw [Pdf.addNames]
  split
  · exact hresources
  · refine hresources.set (Object.within_dictionary.2 ?_)
    refine List.foldlRecOn (motive := Dictionary.Within document.lastNumber) _ _ ?_
      fun old hold entry hmem => ?_
    · cases hold : (Dictionary.get? category resources).bind fun object =>
        (document.resolve object).toDictionary? with
      | none => exact Dictionary.within_nil _
      | some old =>
        obtain ⟨object, hobject, hentries⟩ := Option.bind_eq_some_iff.1 hold
        exact (hclosed.resolve (hresources.get? hobject)).toDictionary? hentries
    · have hid : entry.2.number ≤ document.lastNumber :=
        hnames entry.1 entry.2 (SortedMap.get?_of_mem hmem)
      exact hold.set (Object.within_reference.2 hid)

theorem Press.Orderly.stampedContents (horderly : press.Orderly) (page : ObjectId)
    (stamp : Stamp) : (press.stampedContents page stamp).2.Orderly ∧
      (press.stampContent stamp).2.document.lastNumber ≤
        (press.stampedContents page stamp).2.document.lastNumber ∧
      ∀ item ∈ (press.stampedContents page stamp).1,
        item.Within (press.stampedContents page stamp).2.document.lastNumber := by
  have hcontent : (press.stampContent stamp).2.Orderly := horderly.addContent _
  exact hcontent.arrange (fun item hmem => hcontent.document.contentEntries hmem)
    (Nat.le_refl _)

theorem Press.Orderly.mergedResources (horderly : press.Orderly) (page : ObjectId) {stamp : Stamp}
    (hfonts : ∀ name id, stamp.fonts.get? name = some id →
      id.number ≤ press.document.lastNumber)
    (hpictures : ∀ name id, stamp.pictures.get? name = some id →
      id.number ≤ press.document.lastNumber) :
    Dictionary.Within press.document.lastNumber (press.mergedResources page stamp) :=
  horderly.document.addNames hpictures "XObject"
    (horderly.document.addNames hfonts "Font" (horderly.document.resources page))

/-- Attaching a stamp that names only numbers in use keeps a press orderly. -/
theorem Press.Orderly.attach (horderly : press.Orderly) {page : ObjectId} {stamp : Stamp}
    (hfonts : ∀ name id, stamp.fonts.get? name = some id →
      id.number ≤ press.document.lastNumber)
    (hpictures : ∀ name id, stamp.pictures.get? name = some id →
      id.number ≤ press.document.lastNumber) :
    (press.attach page stamp).2.Orderly := by
  obtain ⟨hplaced, hlast, hcontents⟩ := horderly.stampedContents page stamp
  have hcontent : (press.stampContent stamp).2.Orderly := horderly.addContent _
  have hmerged := hcontent.mergedResources page
    (fun name id hget => Nat.le_succ_of_le (hfonts name id hget))
    (fun name id hget => Nat.le_succ_of_le (hpictures name id hget))
  rw [Press.attach_eq]
  dsimp only
  split
  next document hchange =>
    obtain ⟨place, entries, hlocate, rfl⟩ := Document.change_eq_ok.1 hchange
    have hpage := (Document.get?_of_locate hlocate).1
    have hentries := Object.within_dictionary.1 (hplaced.document.within place _ hpage)
    refine hplaced.withDocument (hplaced.document.put ?_ ?_) (Nat.le_refl _)
    · exact hplaced.document.numbered place _ hpage
    · refine Object.within_dictionary.2 ((hentries.set ?_).set ?_)
      · exact (Object.within_dictionary.2 hmerged).mono hlast
      · exact Object.within_array.2 hcontents
  next => exact hplaced

end Attaching

/-- A canvas on an orderly press, with a stamp that names only what the press handed out. -/
structure Canvas.Orderly (canvas : Canvas) : Prop where
  press : canvas.press.Orderly
  fonts : ∀ name id, canvas.stamp.fonts.get? name = some id →
    id.number ≤ canvas.press.document.lastNumber ∧ IsFontName name
  pictures : ∀ name id, canvas.stamp.pictures.get? name = some id →
    id.number ≤ canvas.press.document.lastNumber ∧ IsPictureName name

namespace Canvas

variable {canvas after : Canvas}

theorem orderly_start {press : Press} (horderly : press.Orderly) : Orderly { press } where
  press := horderly
  fonts _ _ hget := by cases hget
  pictures _ _ hget := by cases hget

theorem Orderly.record {call : Drawing.Call} (horderly : canvas.Orderly)
    (hrecord : canvas.record call = .ok after) : after.Orderly := by
  cases call with
  | font font size =>
    cases hrecord
    obtain ⟨hpress, hlast, hid, hname⟩ := horderly.press.useFont font
    refine ⟨hpress, SortedMap.forall_get?_insert (fun name id hget => ?_) ⟨hid, hname⟩,
      fun name id hget => ?_⟩
    · exact (horderly.fonts name id hget).imp_left (Nat.le_trans · hlast)
    · exact (horderly.pictures name id hget).imp_left (Nat.le_trans · hlast)
  | showText text =>
    rw [Canvas.record, Canvas.showText] at hrecord
    split at hrecord
    · cases hrecord
    next font hfont =>
      cases hrecord
      obtain ⟨hpress, hlast⟩ := horderly.press.encodeText font text
      exact ⟨hpress,
        fun name id hget => (horderly.fonts name id hget).imp_left (Nat.le_trans · hlast),
        fun name id hget => (horderly.pictures name id hget).imp_left (Nat.le_trans · hlast)⟩
  | picture picture box =>
    cases hrecord
    obtain ⟨hpress, hlast, hid, hname⟩ := horderly.press.usePicture picture
    refine ⟨hpress, fun name id hget => ?_,
      SortedMap.forall_get?_insert (fun name id hget => ?_) ⟨hid, hname⟩⟩
    · exact (horderly.fonts name id hget).imp_left (Nat.le_trans · hlast)
    · exact (horderly.pictures name id hget).imp_left (Nat.le_trans · hlast)
  | _ =>
    cases hrecord
    exact ⟨horderly.press, horderly.fonts, horderly.pictures⟩

end Canvas

end Overprint.Pdf
