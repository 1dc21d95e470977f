import Overprint.Proofs.Pdf.Completion
import Overprint.Proofs.Pdf.Naming
import Overprint.Proofs.Stamping

/-!
# What the names of a run stand for

All pages of a run are drawn on one press. A font or a picture gets its name when it is first used,
and its name and its object stay its own to the end; so in the result every name in the content of a
page leads to what was drawn there, whatever pages came before and after.
-/

namespace Overprint

open Drawing Page Pdf Script

variable {configuration : Configuration} {script : List Command} {source result : Document}
  {pathname : String} {library shelf : Library}

/-- A run that is ready to draw: which pages have commands, and what was loaded for them. -/
structure Run (configuration : Configuration) (script : List Command) (source : Document)
    (pathname : String) (library : Library) where
  schedule : Schedule
  stock : Stock
  targets : List Target
  scheduled : Schedule.ofScript script source.pages.length = .ok schedule
  loaded : (Stock.load library configuration.defaultFont? script).outcome = .ok stock
  found : Overprint.targets source source.pages schedule = .ok targets

namespace Run

variable (run : Run configuration script source pathname library)

def drawing (target : Target) : Sketch Unit :=
  target.drawing configuration run.stock pathname source.pages.length

def stampPage (press : Press) (target : Target) : Outcome Press :=
  Overprint.stampPage configuration run.stock pathname source.pages.length press target

def pressAfter (done : List Target) : Outcome Press :=
  done.foldlM run.stampPage { document := source, layer := configuration.layer }

/-- A call in the drawing of a page that uses a font or a picture. -/
structure Use where
  done : List Target
  target : Target
  later : List Target
  order : run.targets = done ++ target :: later
  before : List Call
  call : Call
  after : List Call
  drawn : (run.drawing target).trace = before ++ call :: after
  asset : Asset
  used : call.asset? = some asset

variable {run}

/-- On a press the call is recorded under a name: in the stamp of its page, the operations of the
calls before it are followed by its own ones, which have the name. -/
def Use.RecordedOn (use : run.Use) (press : Press) (name : String) : Prop :=
  ∃ start canvas rest, use.before.foldlM Canvas.record { press } = .ok start ∧
    recordAll press (run.drawing use.target) = .ok canvas ∧
    canvas.stamp.operations = start.stamp.operations ++ namedOperations name use.call ++ rest

/-- The call is recorded under a name, on the press that the pages before have left. -/
def Use.RecordedAs (use : run.Use) (name : String) : Prop :=
  ∃ press, run.pressAfter use.done = .ok press ∧ use.RecordedOn press name

theorem Use.target_mem (use : run.Use) : use.target ∈ run.targets := by
  rw [use.order]
  exact List.mem_append_right _ List.mem_cons_self

/-- The place of the dictionary of a page that is drawn on. -/
def IsPlace (run : Run configuration script source pathname library) (place : ObjectId) : Prop :=
  ∃ target ∈ run.targets, ∃ entries, source.locate target.id = .ok (place, .dictionary entries)

/-- A press in the course of the run. What is on record there has the names that it has on a shelf. -/
structure Underway (run : Run configuration script source pathname library) (shelf : Library)
    (press : Press) : Prop where
  registered : press.Registered shelf source.lastNumber
  overprints : Press.Overprints run.IsPlace source press

/-- An asset has a name and a number on the press, and a page in a place has the name for it. -/
def Named (press : Press) (place : ObjectId) (asset : Asset) (name : String) (id : ObjectId) :
    Prop :=
  press.Has asset name id ∧ press.document.BindsAt place asset.category name id

variable {press after : Press} {target : Target} {canvas : Canvas}

theorem exists_place (run : Run configuration script source pathname library)
    (hmem : target ∈ run.targets) :
    ∃ place entries, source.locate target.id = .ok (place, .dictionary entries) ∧
      run.IsPlace place := by
  obtain ⟨-, hid, -, -⟩ := target_of_mem run.found hmem
  obtain ⟨place, entries, hlocate⟩ := Document.locate_of_mem_pages (List.mem_of_getElem? hid)
  exact ⟨place, entries, hlocate, target, hmem, entries, hlocate⟩

theorem underway_start (run : Run configuration script source pathname library)
    (hnumbered : source.Numbered) (shelf : Library) :
    run.Underway shelf { document := source, layer := configuration.layer } where
  registered := Press.registered_start hnumbered configuration.layer
  overprints := by
    refine ⟨.refl fun place hplace => ?_, fun entry hmem => by cases hmem⟩
    obtain ⟨_, -, entries, hlocate⟩ := hplace
    exact ⟨entries, (Document.get?_of_locate hlocate).1⟩

/-- The run is what it does before a page, that page, and the later ones. -/
theorem exists_press_of_split {done later : List Target} {final : Press}
    (horder : run.targets = done ++ target :: later)
    (hfinal : run.pressAfter run.targets = .ok final) :
    ∃ press stamped, run.pressAfter done = .ok press ∧ run.stampPage press target = .ok stamped ∧
      later.foldlM run.stampPage stamped = .ok final := by
  rw [pressAfter, horder, List.foldlM_append] at hfinal
  obtain ⟨press, hbefore, hfinal⟩ := Outcome.bind_eq_ok.1 hfinal
  rw [List.foldlM_cons] at hfinal
  obtain ⟨stamped, hpage, hrest⟩ := Outcome.bind_eq_ok.1 hfinal
  exact ⟨press, stamped, hbefore, hpage, hrest⟩

theorem usesOf_drawing (run : Run configuration script source pathname library)
    (hcovers : shelf.Covers library)
    (hrecord : recordAll press (run.drawing target) = .ok canvas) :
    ∀ call ∈ (run.drawing target).trace, call.UsesOf shelf := by
  have hfrom := Stock.From.load hcovers run.loaded
  exact usesOf_page hfrom (Traced.eq_of_outcome (recordAll_eq_ok hrecord).2)

section Steps

variable (hnumbered : source.Numbered) (hcovers : shelf.Covers library)
  (hpress : run.Underway shelf press)

include hcovers hpress

theorem canvas_of_recordAll (hrecord : recordAll press (run.drawing target) = .ok canvas) :
    canvas.Registered shelf source.lastNumber ∧ Canvas.Continues { press } canvas := by
  have hstart := Canvas.registered_start hpress.registered
  exact hstart.foldlM_record (run.usesOf_drawing hcovers hrecord) (recordAll_eq_ok hrecord).1

include hnumbered

omit hcovers in
theorem locate_of_recordAll (hmem : target ∈ run.targets)
    (hrecord : recordAll press (run.drawing target) = .ok canvas) :
    ∃ place old entries, source.locate target.id = .ok (place, .dictionary old) ∧
      place.number ≤ source.lastNumber ∧ run.IsPlace place ∧
      canvas.press.document.locate target.id = .ok (place, .dictionary entries) := by
  obtain ⟨place, old, hlocate, hplace⟩ := run.exists_place hmem
  have hover : source.Overprints run.IsPlace canvas.press.document :=
    recordAll_preserves (motive := fun canvas => source.Overprints run.IsPlace canvas.press.document)
      (fun _ _ _ hafter hcanvas => Canvas.record_overprints hnumbered hcanvas hafter) hrecord
      hpress.overprints.document
  obtain ⟨entries, hcurrent, -⟩ := hover.locate hnumbered hlocate hplace
  have hget := (Document.get?_of_locate hlocate).1
  exact ⟨place, old, entries, hlocate, hnumbered place _ hget, hplace, hcurrent⟩

theorem underway_stampPage (hmem : target ∈ run.targets)
    (hpage : run.stampPage press target = .ok after) : run.Underway shelf after := by
  obtain ⟨canvas, hrecord, hattach, rfl⟩ := stampPage_eq_ok hpage
  obtain ⟨place, old, entries, hlocate, hle, hplace, hcurrent⟩ :=
    locate_of_recordAll hnumbered hpress hmem hrecord
  obtain ⟨hcanvas, -⟩ := canvas_of_recordAll hcovers hpress hrecord
  exact ⟨hcanvas.press.attach hcurrent hle,
    stampPage_overprints hnumbered hlocate hplace hpress.overprints hpage⟩

theorem named_stampPage (hmem : target ∈ run.targets)
    (hpage : run.stampPage press target = .ok after) {place : ObjectId} {asset : Asset}
    {name : String} {id : ObjectId} (hnamed : Named press place asset name id) :
    Named after place asset name id := by
  obtain ⟨hhas, found, resources, names, hget, hbound⟩ := hnamed
  obtain ⟨canvas, hrecord, hattach, rfl⟩ := stampPage_eq_ok hpage
  obtain ⟨_, _, entries, -, -, -, hcurrent⟩ :=
    locate_of_recordAll hnumbered hpress hmem hrecord
  obtain ⟨hcanvas, hcontinues⟩ := canvas_of_recordAll hcovers hpress hrecord
  have hkept : press.document.Overprints (fun _ => False) canvas.press.document :=
    recordAll_preserves
      (motive := fun canvas => press.document.Overprints (fun _ => False) canvas.press.document)
      (fun _ _ _ hafter hcanvas =>
        Canvas.record_overprints hpress.registered.numbered hcanvas hafter) hrecord
      (.untouched press.document)
  have hdrawn : canvas.press.Has asset name id := hcontinues.retains asset name id hhas
  have hbinds : canvas.press.document.BindsAt place asset.category name id := by
    refine ⟨found, resources, names, ?_, hbound⟩
    rw [hkept.kept place (hpress.registered.numbered place _ hget) not_false, hget]
  exact ⟨Press.retains_attach _ _ _ asset name id hdrawn,
    Press.bindsAt_attach hcanvas.press.numbered hcurrent hbinds
      fun _ hfound => hcanvas.eq_of_names hdrawn hfound⟩

omit hnumbered in
/-- A call is recorded under a name that the stamp of its page has for the object of the asset. -/
theorem Use.recorded {use : run.Use}
    (hrecord : recordAll press (run.drawing use.target) = .ok canvas) :
    ∃ name id, use.RecordedOn press name ∧ canvas.press.Has use.asset name id ∧
      (canvas.stamp.names use.asset.category).get? name = some id := by
  have hcalls := run.usesOf_drawing hcovers hrecord
  have hfold := (recordAll_eq_ok hrecord).1
  rw [use.drawn] at hcalls hfold
  rw [List.foldlM_append] at hfold
  obtain ⟨start, hbefore, hfold⟩ := Outcome.bind_eq_ok.1 hfold
  rw [List.foldlM_cons] at hfold
  obtain ⟨next, hcall, hafter⟩ := Outcome.bind_eq_ok.1 hfold
  have hsplit := List.forall_mem_append.1 hcalls
  obtain ⟨huses, hrest⟩ := List.forall_mem_cons.1 hsplit.2
  obtain ⟨hstart, -⟩ :=
    (Canvas.registered_start hpress.registered).foldlM_record hsplit.1 hbefore
  obtain ⟨hnext, -⟩ := hstart.record huses hcall
  obtain ⟨name, id, hhas, hoperations, hname⟩ :=
    Canvas.record_asset hstart huses use.used hcall
  obtain ⟨hcanvas, hcontinues⟩ := hnext.foldlM_record hrest hafter
  obtain ⟨rest, hlater⟩ := hcontinues.operations
  refine ⟨name, id, ⟨start, canvas, rest, hbefore, hrecord, ?_⟩, hcontinues.retains _ _ _ hhas,
    hcontinues.get?_names hcanvas hhas hname⟩
  rw [← hlater, hoperations]

/-- When the page of a call is stamped, the name of the call is bound there. -/
theorem Use.named_stampPage {use : run.Use}
    (hpage : run.stampPage press use.target = .ok after) :
    ∃ name id place old, source.locate use.target.id = .ok (place, .dictionary old) ∧
      shelf.Provides use.asset ∧ use.RecordedOn press name ∧
      Named after place use.asset name id := by
  obtain ⟨canvas, hrecord, hattach, rfl⟩ := stampPage_eq_ok hpage
  obtain ⟨place, old, entries, hlocate, -, -, hcurrent⟩ :=
    locate_of_recordAll hnumbered hpress use.target_mem hrecord
  obtain ⟨hcanvas, -⟩ := canvas_of_recordAll hcovers hpress hrecord
  obtain ⟨name, id, hrecorded, hhas, hname⟩ := Use.recorded hcovers hpress hrecord
  have hprovides : shelf.Provides use.asset := by
    refine run.usesOf_drawing hcovers hrecord use.call ?_ use.asset use.used
    rw [use.drawn]
    exact List.mem_append_right _ List.mem_cons_self
  exact ⟨name, id, place, old, hlocate, hprovides, hrecorded, Press.retains_attach _ _ _ _ _ _ hhas,
    Press.bindsAt_attach_of_get? hcanvas.press.numbered hcurrent hname⟩

omit hcovers in
/-- When the fonts are written, what is named on a page is bound there to an object that is the
asset. -/
theorem resolves_finish {page place : ObjectId} {old : Dictionary}
    (hlocate : source.locate page = .ok (place, .dictionary old)) (hplace : run.IsPlace place)
    {asset : Asset} {name : String} {id : ObjectId} (hnamed : Named press place asset name id)
    (hfaithful : shelf.Faithful) (hprovides : shelf.Provides asset) :
    press.finish.binding? page asset.category name = some (.reference id) ∧
      press.finish.Holds id asset := by
  obtain ⟨hhas, found, resources, names, hget, hbound⟩ := hnamed
  obtain ⟨hsupplements, -⟩ := hpress.registered.finish_spec
  have hbinds : press.finish.BindsAt place asset.category name id :=
    ⟨found, resources, names, hsupplements.kept place _ hget, hbound⟩
  have hover := hpress.overprints.finish hnumbered
  obtain ⟨new, hcurrent, -⟩ := hover.locate hnumbered hlocate hplace
  exact ⟨hbinds.binding? hcurrent, hpress.registered.holds_finish hfaithful hhas hprovides⟩

end Steps

section Runs

variable (hnumbered : source.Numbered) (hcovers : shelf.Covers library)
  (hfaithful : library.Faithful) {final : Press} (hfinal : run.pressAfter run.targets = .ok final)

include hnumbered hcovers

theorem underway_foldlM {targets : List Target} (htargets : ∀ target ∈ targets, target ∈ run.targets)
    (hpress : run.Underway shelf press) (hfold : targets.foldlM run.stampPage press = .ok after) :
    run.Underway shelf after :=
  Outcome.foldlM_preserves (fun _ target _ hmem hpage hbefore =>
    underway_stampPage hnumbered hcovers hbefore (htargets target hmem) hpage) hfold hpress

theorem named_foldlM {targets : List Target}
    (htargets : ∀ target ∈ targets, target ∈ run.targets) (hpress : run.Underway shelf press)
    (hfold : targets.foldlM run.stampPage press = .ok after) {place : ObjectId} {asset : Asset}
    {name : String} {id : ObjectId} (hnamed : Named press place asset name id) :
    Named after place asset name id := by
  refine (Outcome.foldlM_preserves
    (motive := fun press => run.Underway shelf press ∧ Named press place asset name id) ?_ hfold
    ⟨hpress, hnamed⟩).2
  rintro before target next hmem hpage ⟨hbefore, hnamed⟩
  have htarget := htargets target hmem
  exact ⟨underway_stampPage hnumbered hcovers hbefore htarget hpage,
    named_stampPage hnumbered hcovers hbefore htarget hpage hnamed⟩

omit hcovers

include hfaithful hfinal

theorem underway_final : run.Underway library final :=
  underway_foldlM hnumbered hfaithful.covers (fun _ hmem => hmem)
    (run.underway_start hnumbered library) hfinal

theorem Use.resolves (use : run.Use) : ∃ name id, use.RecordedAs name ∧
    final.Has use.asset name id ∧
    final.finish.binding? use.target.id use.asset.category name = some (.reference id) ∧
    final.finish.Holds id use.asset := by
  have htargets : ∀ target ∈ use.done ++ use.target :: use.later, target ∈ run.targets := by
    rw [use.order]
    exact fun _ hmem => hmem
  obtain ⟨hdone, hremaining⟩ := List.forall_mem_append.1 htargets
  obtain ⟨htarget, hlater⟩ := List.forall_mem_cons.1 hremaining
  obtain ⟨press, stamped, hbefore, hpage, hrest⟩ := exists_press_of_split use.order hfinal
  have hpress := underway_foldlM hnumbered hfaithful.covers hdone
    (run.underway_start hnumbered library) hbefore
  obtain ⟨name, id, place, old, hlocate, hprovides, hrecorded, hnamed⟩ :=
    Use.named_stampPage hnumbered hfaithful.covers hpress hpage
  have hstamped := underway_stampPage hnumbered hfaithful.covers hpress htarget hpage
  have hend := named_foldlM hnumbered hfaithful.covers hlater hstamped hrest hnamed
  obtain ⟨hbinding, hholds⟩ :=
    resolves_finish hnumbered (underway_final hnumbered hfaithful hfinal) hlocate
      ⟨use.target, htarget, old, hlocate⟩ hend hfaithful hprovides
  exact ⟨name, id, ⟨press, hbefore, hrecorded⟩, hend.1, hbinding, hholds⟩

end Runs

end Run

/-- In the result of a run every name in the content of a page leads to what was drawn there. Each
call that uses a font or a picture is recorded in the stamp of its page with a name that the resources
of the page bind to an object; that object is the font or the picture of the call, with all that
belongs to it. On whatever pages two calls are, their names and their objects are the same exactly if
they use fonts with one key or pictures with one path; and no new number in the document is without
an object. -/
theorem stamp_names_resolve (hnumbered : source.Numbered) (hfaithful : library.Faithful)
    (hstamp : (stamp configuration script source pathname library).outcome = .ok result) :
    ∃ (run : Run configuration script source pathname library) (final : Press),
      run.pressAfter run.targets = .ok final ∧ result = final.finish ∧
      (∃ (name : run.Use → String) (object : run.Use → ObjectId),
        (∀ use : run.Use, use.RecordedAs (name use) ∧
          result.binding? use.target.id use.asset.category (name use) =
            some (.reference (object use)) ∧
          result.Holds (object use) use.asset) ∧
        ∀ use other : run.Use, (name use = name other ↔ use.asset.Same other.asset) ∧
          (object use = object other ↔ use.asset.Same other.asset)) ∧
      ∀ number, source.lastNumber < number → number ≤ result.lastNumber →
        result.objects.get? ⟨number, 0⟩ ≠ none := by
  obtain ⟨schedule, stock, found, hschedule, hstock, hfound, hpages⟩ := stamp_eq_ok hstamp
  obtain ⟨final, hfinal, hfinish⟩ := Outcome.bind_eq_ok.1 hpages
  cases hfinish
  let run : Run configuration script source pathname library :=
    ⟨schedule, stock, found, hschedule, hstock, hfound⟩
  have hrun : run.pressAfter run.targets = .ok final := hfinal
  have hpress := Run.underway_final hnumbered hfaithful hrun
  have hresolves (use : run.Use) := use.resolves hnumbered hfaithful hrun
  refine ⟨run, final, hrun, rfl, ⟨fun use => Classical.choose (hresolves use),
    fun use => Classical.choose (Classical.choose_spec (hresolves use)), ?_, ?_⟩, ?_⟩
  · intro use
    obtain ⟨hrecorded, -, hbinding, hholds⟩ :=
      Classical.choose_spec (Classical.choose_spec (hresolves use))
    exact ⟨hrecorded, hbinding, hholds⟩
  · intro use other
    obtain ⟨-, hfirst, -⟩ := Classical.choose_spec (Classical.choose_spec (hresolves use))
    obtain ⟨-, hsecond, -⟩ := Classical.choose_spec (Classical.choose_spec (hresolves other))
    exact hpress.registered.same_iff hfirst hsecond
  · exact fun number hlt hle => hpress.registered.filled_finish hlt hle

/-- An embedded font and a picture on both pages of a document. -/
theorem stamp_names_resolve_on_two_pages :
    let source := Document.ofObjects
      [(⟨1, 0⟩, .dictionary [("Type", .name "Catalog"), ("Pages", .reference ⟨2, 0⟩)]),
        (⟨2, 0⟩, .dictionary [("Type", .name "Pages"),
          ("Kids", .array [.reference ⟨3, 0⟩, .reference ⟨4, 0⟩])]),
        (⟨3, 0⟩, .dictionary [("Type", .name "Page")]),
        (⟨4, 0⟩, .dictionary [("Type", .name "Page")])]
      [("Root", .reference ⟨1, 0⟩)]
    let face : Face := {
      grid := ⟨1000, 0, 0, 1000, 1000⟩
      ascender := 800
      descender := -200
      glyph? := fun _ => none
      advance? := fun _ => none }
    let library : Library := {
      font := fun path => .ok (.embedded { path, data := .empty, face })
      picture := fun path => .ok { path, width := 1, height := 1, data := .samples [0, 0, 0] none } }
    let script : List Command := [
      { verb := .pages, operands := [⟨"1"⟩, ⟨"2"⟩] },
      { verb := .fontFile, operands := [⟨"a.ttf"⟩] },
      { verb := .text, operands := [⟨"A"⟩] },
      { verb := .image, operands := [⟨"b.ppm"⟩, ⟨"0"⟩, ⟨"0"⟩] }]
    source.Numbered ∧ library.Faithful ∧
      ∃ result, (stamp {} script source "a.pdf" library).outcome = .ok result ∧
        result.lastNumber = 12 ∧
        (∀ number, 4 < number → number ≤ 12 → result.objects.get? ⟨number, 0⟩ ≠ none) ∧
        ∃ run : Run {} script source "a.pdf" library, ∀ use other : run.Use,
          use.asset.Same other.asset → ∃ name id,
            result.binding? use.target.id use.asset.category name = some (.reference id) ∧
            result.binding? other.target.id other.asset.category name = some (.reference id) ∧
            result.Holds id use.asset := by
  intro source face library script
  have hnumbered : source.Numbered := Document.numbered_ofObjects _ _
  have hfaithful : library.Faithful := by
    refine ⟨fun name font hfont => ?_, fun path picture hpicture => ?_,
      fun first picture second other hfirst hsecond _ => ?_⟩
    · cases hfont
      rfl
    · cases hpicture
      rfl
    · cases hfirst
      cases hsecond
      rfl
  have hsucceeds : (stamp {} script source "a.pdf" library).outcome.toOption.map (·.lastNumber) =
      some 12 := by
    decide +kernel
  obtain ⟨result, hresult, hlast⟩ := Option.map_eq_some_iff.1 hsucceeds
  have hstamp := Outcome.eq_ok_of_toOption hresult
  obtain ⟨run, final, -, -, ⟨name, object, hresolves, hsame⟩, hfilled⟩ :=
    stamp_names_resolve hnumbered hfaithful hstamp
  refine ⟨hnumbered, hfaithful, result, hstamp, hlast, fun number hlt hle => ?_, run,
    fun use other hassets => ⟨name use, object use, ?_, ?_, ?_⟩⟩
  · exact hfilled number hlt (hlast ▸ hle)
  · exact (hresolves use).2.1
  · obtain ⟨-, hbinding, -⟩ := hresolves other
    obtain ⟨hname, hobject⟩ := hsame use other
    rw [hname.2 hassets, hobject.2 hassets]
    exact hbinding
  · exact (hresolves use).2.2

end Overprint
