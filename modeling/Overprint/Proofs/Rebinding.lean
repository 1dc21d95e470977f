import Overprint.Proofs.Pdf.Binding
import Overprint.Proofs.Stamping

/-!
# Names that a stamp binds anew

The names of a stamp are counted by the press, and not checked against the names that a page has. So
a name of a page is bound anew where the stamp has the same one for another object; and, as the
dictionary of a page is written to, where that dictionary itself is a category of its resources. Every
other name stays bound to what it was.
-/

namespace Overprint

open Drawing Page Pdf Script

namespace Pdf

/-- A stamp has the name of an object for another one. -/
def Stamp.Takes (stamp : Stamp) (category name : String) (object : Object) : Prop :=
  ∃ id, (stamp.names category).get? name = some id ∧ object ≠ .reference id

namespace Press

/-- A category in which the stamp has no names is the dictionary of the page itself, and the name is
the key of an entry that is written. -/
def WritesOver (press : Press) (page : ObjectId) (stamp : Stamp) (category name : String)
    (object : Object) : Prop :=
  (stamp.names category).entries = [] ∧
    (∃ id, Dictionary.get? category (press.document.resources page) = some (.reference id) ∧
      press.document.locate id = press.document.locate page) ∧
    (name = "Contents" ∨
      name = "Resources" ∧ object ≠ .dictionary (press.stampedResources page stamp))

/-- A name of a page is bound to an object, and attaching the stamp binds it to something else. -/
def Rebinds (press : Press) (page : ObjectId) (stamp : Stamp) (category name : String)
    (object : Object) : Prop :=
  stamp.Takes category name object ∨ press.WritesOver page stamp category name object

variable {press : Press} {page place : ObjectId} {stamp : Stamp} {entries : Dictionary}
  {category name : String} {object : Object}

/-- Where the stamp has names, it keeps a binding unless it has the name for another object. -/
theorem binding?_attach_of_names (hnumbered : press.document.Numbered)
    (hpage : press.document.locate page = .ok (place, .dictionary entries))
    (hnames : (stamp.names category).entries ≠ [])
    (hbinding : press.document.binding? page category name = some object) :
    (press.attach page stamp).2.document.binding? page category name = some object ↔
      ¬ stamp.Takes category name object := by
  obtain ⟨new, hnew, hget⟩ := get?_mergedResources (press.stampContent stamp).2 page stamp hnames
  have hafter : (press.attach page stamp).2.document.binding? page category name =
      Dictionary.get? name new := by
    rw [Document.binding?, resources_attach hnumbered hpage, stampedResources, hnew]
    rfl
  rw [hafter, hget, press.binding?_stampContent page stamp hnumbered, hbinding, Stamp.Takes]
  cases (stamp.names category).get? name with
  | none => simp
  | some id => simp [eq_comm]

/-- A category that is the dictionary of the page keeps an entry unless it is written. -/
theorem get?_stampedPage_iff (hclosed : press.document.Closed)
    (hpage : press.document.locate page = .ok (place, .dictionary entries))
    (hobject : Dictionary.get? name entries = some object) :
    Dictionary.get? name (stampedPage (press.stampedResources page stamp)
        (press.stampedContents page stamp).1 entries) = some object ↔
      ¬ (name = "Contents" ∨
        name = "Resources" ∧ object ≠ .dictionary (press.stampedResources page stamp)) := by
  have hentries := hclosed.within place _ (Document.get?_of_locate hpage).1
  have hwithin := (Object.within_dictionary.1 hentries).get? hobject
  rw [get?_stampedPage]
  by_cases hcontents : name = "Contents"
  · rw [if_pos hcontents.symm, Option.some.injEq]
    exact iff_of_false (ne_stampedContents hwithin).symm (not_not_intro (.inl hcontents))
  · rw [if_neg (Ne.symm hcontents)]
    by_cases hresources : name = "Resources"
    · rw [if_pos hresources.symm, Option.some.injEq]
      simp [hresources, eq_comm]
    · rw [if_neg (Ne.symm hresources)]
      simp [hobject, hcontents, hresources]

theorem binding?_attach_eq (hnumbered : press.document.Numbered)
    (hpage : press.document.locate page = .ok (place, .dictionary entries))
    (hnames : (stamp.names category).entries = [])
    (hobject : Dictionary.get? category (press.document.resources page) = some object)
    (name : String) : (press.attach page stamp).2.document.binding? page category name =
      ((press.attach page stamp).2.document.entries? object).bind (Dictionary.get? name) := by
  rw [Document.binding?, resources_attach hnumbered hpage, stampedResources,
    get?_mergedResources_of_empty _ _ _ hnames,
    press.resources_stampContent page stamp hnumbered, hobject]
  rfl

/-- Where the stamp has no names, a binding is kept unless it is written over. -/
theorem binding?_attach_of_no_names (hclosed : press.document.Closed)
    (hpage : press.document.locate page = .ok (place, .dictionary entries))
    (hnames : (stamp.names category).entries = [])
    (hbinding : press.document.binding? page category name = some object) :
    (press.attach page stamp).2.document.binding? page category name = some object ↔
      ¬ press.WritesOver page stamp category name object := by
  have hnumbered := hclosed.numbered
  obtain ⟨value, hvalue, hbound⟩ := Option.bind_eq_some_iff.1 hbinding
  obtain ⟨found, hfound, hobject⟩ := Option.bind_eq_some_iff.1 hbound
  rw [binding?_attach_eq hnumbered hpage hnames hvalue name]
  cases value with
  | dictionary direct =>
    cases hfound
    refine iff_of_true hobject ?_
    rintro ⟨-, ⟨id, hid, -⟩, -⟩
    rw [hvalue] at hid
    cases hid
  | reference id =>
    rw [Document.entries?_reference] at hfound ⊢
    obtain ⟨other, hlocate⟩ := Document.locate_of_dictionary? hfound
    by_cases hother : other = place
    · subst hother
      cases Document.eq_of_locate hpage hlocate
      have hsame : press.document.locate id = press.document.locate page := by
        rw [hlocate, hpage]
      have hself : ∃ target, Dictionary.get? category (press.document.resources page) =
          some (.reference target) ∧ press.document.locate target = press.document.locate page :=
        ⟨id, hvalue, hsame⟩
      rw [dictionary?_attach hnumbered hpage hsame, Option.bind_some,
        get?_stampedPage_iff hclosed hpage hobject, WritesOver, and_iff_right hnames,
        and_iff_right hself]
    · rw [dictionary?_attach_of_ne hnumbered hpage hother hlocate]
      refine iff_of_true hobject ?_
      rintro ⟨-, ⟨target, htarget, hsame⟩, -⟩
      rw [hvalue] at htarget
      cases htarget
      rw [hlocate, hpage] at hsame
      cases hsame
      exact hother rfl
  | _ => cases hfound

/-- A binding of a page is kept when a stamp is attached, unless the stamp binds the name anew. -/
theorem binding?_attach (hclosed : press.document.Closed)
    (hpage : press.document.locate page = .ok (place, .dictionary entries))
    (hbinding : press.document.binding? page category name = some object) :
    (press.attach page stamp).2.document.binding? page category name = some object ↔
      ¬ press.Rebinds page stamp category name object := by
  rw [Rebinds, not_or]
  by_cases hnames : (stamp.names category).entries = []
  · have htakes : ¬ stamp.Takes category name object := by
      rintro ⟨id, hget, -⟩
      rw [SortedMap.get?, hnames] at hget
      cases hget
    rw [binding?_attach_of_no_names hclosed hpage hnames hbinding]
    exact (and_iff_right htakes).symm
  · have hwrites : ¬ press.WritesOver page stamp category name object := fun hwrites =>
      hnames hwrites.1
    rw [binding?_attach_of_names hclosed.numbered hpage hnames hbinding]
    exact (and_iff_left hwrites).symm

end Press

end Pdf

section Runs

variable {configuration : Configuration} {source : Document} {pathname : String} {stock : Stock}
  {pageCount : Nat} {press after : Press} {drawing : Sketch Unit} {canvas : Canvas}
  {page : ObjectId} {entries : Dictionary} {category name : String} {object : Object}

theorem recordAll_orderly (horderly : press.Orderly)
    (hrecord : recordAll press drawing = .ok canvas) : canvas.Orderly :=
  recordAll_preserves (fun _ _ _ hafter hcanvas => hcanvas.record hafter) hrecord
    (Canvas.orderly_start horderly)

theorem stampPage_orderly (horderly : press.Orderly) {target : Target}
    (hpage : stampPage configuration stock pathname pageCount press target = .ok after) :
    after.Orderly := by
  obtain ⟨canvas, hrecord, -, rfl⟩ := stampPage_eq_ok hpage
  have hcanvas := recordAll_orderly horderly hrecord
  exact hcanvas.press.attach (fun name id hget => (hcanvas.fonts name id hget).1)
    (fun name id hget => (hcanvas.pictures name id hget).1)

theorem names_of_takes (hcanvas : canvas.Orderly)
    (htakes : canvas.stamp.Takes category name object) :
    category = "Font" ∧ IsFontName name ∨ category = "XObject" ∧ IsPictureName name := by
  obtain ⟨id, hget, -⟩ := htakes
  rw [Stamp.names] at hget
  split at hget
  next hfont => exact .inl ⟨hfont, (hcanvas.fonts name id hget).2⟩
  next =>
    split at hget
    next hpicture => exact .inr ⟨hpicture, (hcanvas.pictures name id hget).2⟩
    next => cases hget

/-- In a document that refers to nothing beyond itself, and at any time of a run, attaching what was
drawn for a page keeps a binding of the page but where the stamp binds the name anew. The stamp takes
only names of the kind that the press gives. -/
theorem binding_kept_iff {done : List Target} (hclosed : source.Closed)
    (hdone : done.foldlM (stampPage configuration stock pathname pageCount)
      { document := source, layer := configuration.layer } = .ok press)
    (hrecord : recordAll press drawing = .ok canvas)
    (hpage : canvas.press.document.dictionary? page = some entries)
    (hbinding : canvas.press.document.binding? page category name = some object) :
    (canvas.press.attach page canvas.stamp).1 = .ok () ∧
      ((canvas.press.attach page canvas.stamp).2.document.binding? page category name =
          some object ↔
        ¬ canvas.press.Rebinds page canvas.stamp category name object) ∧
      (canvas.stamp.Takes category name object →
        category = "Font" ∧ IsFontName name ∨ category = "XObject" ∧ IsPictureName name) := by
  have hpress : press.Orderly :=
    Outcome.foldlM_preserves (fun before target after _ hafter hbefore =>
      stampPage_orderly hbefore hafter) hdone (Press.orderly_start hclosed configuration.layer)
  have hcanvas := recordAll_orderly hpress hrecord
  obtain ⟨place, hlocate⟩ := Document.locate_of_dictionary? hpage
  obtain ⟨hattach, -, -⟩ := Press.attach_spec hcanvas.press.document.numbered hlocate
  exact ⟨hattach, Press.binding?_attach hcanvas.press.document hlocate hbinding,
    names_of_takes hcanvas⟩

end Runs

/-- A page that has a font under the first name of the press loses it to the font of a stamp. -/
theorem binding_lost_to_font :
    let source := Document.ofObjects
      [(⟨1, 0⟩, .dictionary [("Type", .name "Page"), ("Resources", .dictionary
          [("Font", .dictionary [("PdfStampF1", .reference ⟨2, 0⟩)])])]),
        (⟨2, 0⟩, .dictionary [("Type", .name "Font")])] []
    let drawing : Sketch Unit := Traced.record (.font (.standard .helvetica) 12.0)
    source.Closed ∧ ∃ canvas, recordAll { document := source, layer := .over } drawing = .ok canvas ∧
      canvas.press.document.binding? ⟨1, 0⟩ "Font" "PdfStampF1" = some (.reference ⟨2, 0⟩) ∧
      (canvas.press.attach ⟨1, 0⟩ canvas.stamp).1 = .ok () ∧
      (canvas.press.attach ⟨1, 0⟩ canvas.stamp).2.document.binding? ⟨1, 0⟩ "Font" "PdfStampF1" ≠
        some (.reference ⟨2, 0⟩) := by
  intro source drawing
  have hclosed : source.Closed := by
    refine ⟨Document.numbered_ofObjects _ _, fun id object hget => ?_⟩
    have hmem := SortedMap.mem_of_get?_ofList hget
    have hlast : source.lastNumber = 2 := by decide
    rw [hlast]
    simp only [List.mem_cons, Prod.mk.injEq, List.not_mem_nil, or_false] at hmem
    rcases hmem with ⟨-, rfl⟩ | ⟨-, rfl⟩ <;> simp [Object.Within]
  let press : Press := { document := source, layer := .over }
  let canvas := Canvas.setFont { press } (.standard .helvetica) 12.0
  have hrecord : recordAll press drawing = .ok canvas := rfl
  have hpage : (canvas.press.document.dictionary? ⟨1, 0⟩).isSome := by decide +kernel
  obtain ⟨entries, hentries⟩ := Option.isSome_iff_exists.1 hpage
  have hbinding : canvas.press.document.binding? ⟨1, 0⟩ "Font" "PdfStampF1" =
      some (.reference ⟨2, 0⟩) := rfl
  have hname : canvas.stamp.fonts.get? "PdfStampF1" = some ⟨3, 0⟩ := by decide +kernel
  obtain ⟨hattach, hkept, -⟩ := @binding_kept_iff {} source "a.pdf" {} 1 press drawing canvas _ _ _ _
    _ [] hclosed rfl hrecord hentries hbinding
  refine ⟨hclosed, canvas, hrecord, hbinding, hattach, fun hsame => hkept.1 hsame (.inl ?_)⟩
  exact ⟨⟨3, 0⟩, hname, by simp⟩

end Overprint
