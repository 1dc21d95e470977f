import Overprint.Proofs.Pdf.Overprinting
import Overprint.Stamping

/-!
# What stamping leaves alone

Stamping a document goes page by page, and every page by recording a drawing and attaching it. All of
this is printing over the dictionaries of the pages that have commands, so the rest of the document is
in the result as it was.
-/

namespace Overprint

open Drawing Page Pdf Script

theorem Pdf.Document.locate_of_mem_pages {document : Document} {id : ObjectId}
    (hmem : id ∈ document.pages) :
    ∃ place entries, document.locate id = .ok (place, .dictionary entries) := by
  have hkind {level : List Object} {waiting : List (List Object)} {budget : Nat}
      (hmem : id ∈ document.pagesFrom budget level waiting) :
      document.nodeKind? id = some "Page" := by
    induction budget generalizing level waiting with
    | zero => cases hmem
    | succ budget ih =>
      rw [Document.pagesFrom] at hmem
      split at hmem
      · cases hmem
      · split at hmem
        · split at hmem
          next hpage =>
            rcases List.mem_cons.1 hmem with rfl | hmem
            · exact hpage
            · exact ih hmem
          next => split at hmem <;> exact ih hmem
          next => exact ih hmem
        · exact ih hmem
  obtain ⟨entries, hentries, -⟩ := Option.bind_eq_some_iff.1 (hkind hmem)
  obtain ⟨place, hlocate⟩ := Document.locate_of_dictionary? hentries
  exact ⟨place, entries, hlocate⟩

section Steps

variable {configuration : Configuration} {script : List Command} {source result : Document}
  {pathname : String} {library : Library} {schedule : Schedule} {found : List Target}

theorem stamp_eq_ok
    (hstamp : (stamp configuration script source pathname library).outcome = .ok result) :
    ∃ schedule stock found, Schedule.ofScript script source.pages.length = .ok schedule ∧
      (Stock.load library configuration.defaultFont? script).outcome = .ok stock ∧
      targets source source.pages schedule = .ok found ∧
      stampPages configuration stock pathname source.pages.length source found = .ok result := by
  obtain ⟨schedule, hschedule, hstamp⟩ := Traced.outcome_bind_eq_ok.1 hstamp
  obtain ⟨stock, hstock, hstamp⟩ := Traced.outcome_bind_eq_ok.1 hstamp
  obtain ⟨found, hfound, hstamp⟩ := Traced.outcome_bind_eq_ok.1 hstamp
  exact ⟨schedule, stock, found, hschedule, hstock, hfound, hstamp⟩

theorem target_of_mem {pages : List ObjectId} (htargets : targets source pages schedule = .ok found)
    {target : Target} (hmem : target ∈ found) :
    schedule.queue target.number ≠ [] ∧ pages[target.number - 1]? = some target.id ∧
      target.commands = schedule.queue target.number ∧
      target.frame = source.pageSize target.id := by
  obtain ⟨⟨number, commands⟩, hqueue, htarget⟩ := Outcome.exists_of_mem_mapM htargets hmem
  obtain ⟨hqueue, hcommands⟩ := List.mem_filter.1 hqueue
  obtain ⟨page, -, hpage⟩ := List.mem_map.1 hqueue
  cases hpage
  dsimp only at htarget
  split at htarget
  next id hid =>
    cases htarget
    refine ⟨?_, hid, rfl, rfl⟩
    simpa using hcommands
  next => cases htarget

/-- The place of the dictionary of a page that a schedule has commands for. -/
def Page.Schedule.Stamps (schedule : Schedule) (source : Document) (place : ObjectId) : Prop :=
  ∃ number id entries, schedule.queue number ≠ [] ∧ source.pages[number - 1]? = some id ∧
    source.locate id = .ok (place, .dictionary entries)

theorem recordAll_eq_ok {press : Press} {drawing : Sketch Unit} {canvas : Canvas}
    (hrecord : recordAll press drawing = .ok canvas) :
    drawing.trace.foldlM Canvas.record { press } = .ok canvas ∧ drawing.outcome = .ok () := by
  obtain ⟨drawn, hdrawn, hrecord⟩ := Outcome.bind_eq_ok.1 hrecord
  obtain ⟨⟨⟩, houtcome, hrecord⟩ := Outcome.bind_eq_ok.1 hrecord
  cases hrecord
  exact ⟨hdrawn, houtcome⟩

/-- What every call on a canvas keeps holds of the canvas of a drawing. -/
theorem recordAll_preserves {motive : Canvas → Prop}
    (hstep : ∀ canvas call after, Canvas.record canvas call = .ok after → motive canvas →
      motive after)
    {press : Press} {drawing : Sketch Unit} {canvas : Canvas}
    (hrecord : recordAll press drawing = .ok canvas) (hstart : motive { press }) :
    motive canvas :=
  Outcome.foldlM_preserves
    (fun canvas call after _ hafter hcanvas => hstep canvas call after hafter hcanvas)
    (recordAll_eq_ok hrecord).1 hstart

def Target.drawing (configuration : Configuration) (stock : Stock) (pathname : String)
    (pageCount : Nat) (target : Target) : Sketch Unit :=
  let scene : Scene := {
    frame := target.frame
    place := { page := target.number, pageCount, pathname }
    stock }
  scene.page configuration.defaults target.commands

theorem stampPage_eq_ok {press after : Press} {stock : Stock} {pageCount : Nat} {target : Target}
    (hpage : stampPage configuration stock pathname pageCount press target = .ok after) :
    ∃ canvas, recordAll press (target.drawing configuration stock pathname pageCount) = .ok canvas ∧
      (canvas.press.attach target.id canvas.stamp).1 = .ok () ∧
      after = (canvas.press.attach target.id canvas.stamp).2 := by
  obtain ⟨canvas, hrecord, hpage⟩ := Outcome.bind_eq_ok.1 hpage
  obtain ⟨_, hattach, hpage⟩ := Outcome.bind_eq_ok.1 hpage
  cases hpage
  exact ⟨canvas, hrecord, hattach, rfl⟩

theorem stampPage_overprints {pages : ObjectId → Prop} (hnumbered : source.Numbered)
    {press after : Press} {stock : Stock} {pageCount : Nat} {target : Target} {place : ObjectId}
    {entries : Dictionary} (hlocate : source.locate target.id = .ok (place, .dictionary entries))
    (hplace : pages place) (hover : Press.Overprints pages source press)
    (hpage : stampPage configuration stock pathname pageCount press target = .ok after) :
    Press.Overprints pages source after := by
  obtain ⟨canvas, hrecord, hattach, rfl⟩ := stampPage_eq_ok hpage
  have hcanvas : Press.Overprints pages source canvas.press :=
    @recordAll_preserves (fun canvas => Press.Overprints pages source canvas.press)
      (fun canvas call after hafter hcanvas => hcanvas.record hnumbered hafter)
      _ _ _ hrecord hover
  exact hcanvas.attach hnumbered hlocate hplace hattach

theorem stamp_overprints (hnumbered : source.Numbered)
    (hschedule : Schedule.ofScript script source.pages.length = .ok schedule)
    (hstamp : (stamp configuration script source pathname library).outcome = .ok result) :
    Document.Overprints (schedule.Stamps source) source result := by
  obtain ⟨_, stock, found, hsame, -, hfound, hpages⟩ := stamp_eq_ok hstamp
  rw [hschedule] at hsame
  cases hsame
  obtain ⟨press, hpress, hfinish⟩ := Outcome.bind_eq_ok.1 hpages
  cases hfinish
  have hstart : Press.Overprints (schedule.Stamps source) source
      { document := source, layer := configuration.layer } := by
    refine ⟨.refl fun place hplace => ?_, fun entry hmem => by cases hmem⟩
    obtain ⟨_, _, entries, -, -, hlocate⟩ := hplace
    exact ⟨entries, (Document.get?_of_locate hlocate).1⟩
  refine Press.Overprints.finish hnumbered ?_
  refine Outcome.foldlM_preserves (motive := Press.Overprints (schedule.Stamps source) source)
    (fun before target after hmem hpage hbefore => ?_) hpress hstart
  obtain ⟨hqueue, hid, -, -⟩ := target_of_mem hfound hmem
  obtain ⟨place, entries, hlocate⟩ := Document.locate_of_mem_pages (List.mem_of_getElem? hid)
  have hplace : schedule.Stamps source place :=
    ⟨target.number, target.id, entries, hqueue, hid, hlocate⟩
  exact stampPage_overprints hnumbered hlocate hplace hbefore hpage

theorem stamp_of_no_commands
    (hschedule : Schedule.ofScript script source.pages.length = .ok schedule)
    (hempty : ∀ number, schedule.queue number = [])
    (hstamp : (stamp configuration script source pathname library).outcome = .ok result) :
    result = source := by
  obtain ⟨_, stock, found, hsame, -, hfound, hpages⟩ := stamp_eq_ok hstamp
  rw [hschedule] at hsame
  cases hsame
  cases found with
  | nil =>
    cases hpages
    rfl
  | cons target rest =>
    obtain ⟨hqueue, -⟩ := target_of_mem hfound List.mem_cons_self
    exact absurd (hempty target.number) hqueue

/-- Only the pages with commands are changed. Every other object is in the result as it was, and so is
the trailer; the dictionary of a page with commands keeps all entries but its resources and its
content; whatever is added has a number above all others. Without commands the result is the document
itself. -/
theorem stamp_leaves_rest (hnumbered : source.Numbered)
    (hstamp : (stamp configuration script source pathname library).outcome = .ok result) :
    ∃ schedule, Schedule.ofScript script source.pages.length = .ok schedule ∧
      result.trailer = source.trailer ∧
      (∀ id object, source.objects.get? id = some object → ¬ schedule.Stamps source id →
        result.objects.get? id = some object) ∧
      (∀ id, schedule.Stamps source id → ∃ old new,
        source.objects.get? id = some (.dictionary old) ∧
        result.objects.get? id = some (.dictionary new) ∧
        ∀ key, key ≠ "Resources" → key ≠ "Contents" →
          Dictionary.get? key new = Dictionary.get? key old) ∧
      (∀ id, source.objects.get? id = none → result.objects.get? id ≠ none →
        source.lastNumber < id.number) ∧
      ((∀ number, schedule.queue number = []) → result = source) := by
  obtain ⟨schedule, -, -, hschedule, -, -, -⟩ := stamp_eq_ok hstamp
  have hover := stamp_overprints hnumbered hschedule hstamp
  refine ⟨schedule, hschedule, hover.trailer, ?_, hover.page, ?_, ?_⟩
  · intro id object hget hstamps
    rw [hover.kept id (hnumbered id object hget) hstamps, hget]
  · intro id hnone hsome
    refine Nat.lt_of_not_le fun hle => ?_
    by_cases hstamps : schedule.Stamps source id
    · obtain ⟨old, -, hold, -⟩ := hover.page id hstamps
      rw [hnone] at hold
      cases hold
    · rw [hover.kept id hle hstamps] at hsome
      exact hsome hnone
  · exact fun hempty => stamp_of_no_commands hschedule hempty hstamp

end Steps

/-- One command on the only page of a small document. -/
theorem stamp_leaves_rest_of_one_page :
    let source := Document.ofObjects
      [(⟨1, 0⟩, .dictionary [("Type", .name "Catalog"), ("Pages", .reference ⟨2, 0⟩)]),
        (⟨2, 0⟩, .dictionary [("Type", .name "Pages"), ("Kids", .array [.reference ⟨3, 0⟩])]),
        (⟨3, 0⟩, .dictionary [("Type", .name "Page"), ("Rotate", .integer 90)])]
      [("Root", .reference ⟨1, 0⟩)]
    let library : Library := {
      font := fun name => .error (.fontNotLoaded name)
      picture := fun path => .error (.pictureNotLoaded path) }
    source.Numbered ∧ ∃ result, (stamp {} [{ verb := .endPath }] source "a.pdf" library).outcome =
      .ok result ∧ result.trailer = [("Root", .reference ⟨1, 0⟩)] ∧
      ∀ id, source.objects.get? id = none → result.objects.get? id ≠ none → 3 < id.number := by
  intro source library
  have hnumbered : source.Numbered := Document.numbered_ofObjects _ _
  have hsucceeds : (stamp {} [{ verb := .endPath }] source "a.pdf" library).outcome.toOption.isSome =
      true := by
    decide +kernel
  obtain ⟨result, hresult⟩ := Option.isSome_iff_exists.1 hsucceeds
  have hstamp := Outcome.eq_ok_of_toOption hresult
  obtain ⟨-, -, htrailer, -, -, hfresh, -⟩ := stamp_leaves_rest hnumbered hstamp
  exact ⟨hnumbered, result, hstamp, htrailer, hfresh⟩

end Overprint
