import Overprint.Proofs.Drawing.Agreement
import Overprint.Proofs.Page.Assignment
import Overprint.Proofs.Page.Partition
import Overprint.Proofs.Pdf.Content
import Overprint.Proofs.Pdf.Rendering
import Overprint.Proofs.Resolution

/-!
# Pages do not interfere

All pages of a run share one press and one stock, and still what is recorded for a page depends only on
the commands of that page. The stock answers alike for what the page names; and the press, which has
counted differently when other pages came before, differs in the names that it gives, not in what they
stand for. If no page has other commands, not even the names differ.
-/

namespace Overprint

open Drawing Page Pdf Script

/-- On a page a name stands for the font or picture at the object that it is bound to. -/
def Pdf.Document.Stands (document : Document) (page : ObjectId) (asset : Asset) (name : String) :
    Prop :=
  ∃ id, document.binding? page asset.category name = some (.reference id) ∧
    document.Holds id asset

/-- The data that a picture is shown with, its mask apart. -/
def Picture.bytes (picture : Picture) : List UInt8 :=
  match picture.data with
  | .jpeg bytes _ => bytes
  | .samples rgb _ => rgb

namespace Pdf

def Operation.naming? (operation : Operation) : Option (String × String) := do
  let name ← operation.operands.head?.bind Object.toName?
  return (operation.operator, name)

/-- The data of the picture that a name stands for on a page. -/
def Document.pictureData? (document : Document) (page : ObjectId) (name : String) :
    Option (List UInt8) := do
  let .reference id ← document.binding? page "XObject" name | none
  let .stream _ data ← document.objects.get? id | none
  return data

variable {document other : Document} {page : ObjectId} {name found : String}

theorem Document.Stands.pictureData?_eq {picture : Picture}
    (hstands : document.Stands page (.picture picture) name) :
    document.pictureData? page name = some picture.bytes := by
  obtain ⟨id, hbinding, entries, data, hget, hdata⟩ := hstands
  have hbytes : data = picture.bytes := by
    obtain ⟨path, width, height, shown⟩ := picture
    cases shown with
    | jpeg bytes grey => exact hdata.1
    | samples rgb alpha? => exact hdata.1
  rw [pictureData?, show document.binding? page "XObject" name = _ from hbinding]
  simp [hget, hbytes]

/-- A picture that is read alike in two documents has the same data in both. -/
theorem pictureData?_eq_of_reads {operations others : List Operation} {readings : List Rendered}
    (hreads : List.Forall₂ (Operation.Reads (document.Stands page)) operations readings)
    (hothers : List.Forall₂ (Operation.Reads (other.Stands page)) others readings) {index : Nat}
    (hname : operations[index]?.bind Operation.naming? = some ("Do", name))
    (hfound : others[index]?.bind Operation.naming? = some ("Do", found)) :
    document.pictureData? page name = other.pictureData? page found := by
  obtain ⟨operation, hget, hnaming⟩ := Option.bind_eq_some_iff.1 hname
  obtain ⟨twin, htwin, htwinNaming⟩ := Option.bind_eq_some_iff.1 hfound
  obtain ⟨_, hhead, hoperator⟩ := Option.bind_eq_some_iff.1 hnaming
  obtain ⟨_, htwinHead, htwinOperator⟩ := Option.bind_eq_some_iff.1 htwinNaming
  obtain ⟨hdo, rfl⟩ := Prod.mk.inj (Option.some.inj hoperator)
  obtain ⟨-, rfl⟩ := Prod.mk.inj (Option.some.inj htwinOperator)
  obtain ⟨hindex, rfl⟩ := List.getElem?_eq_some_iff.1 hget
  obtain ⟨htwinIndex, rfl⟩ := List.getElem?_eq_some_iff.1 htwin
  obtain ⟨hlength, hall⟩ := List.forall₂_iff_get.1 hreads
  obtain ⟨htwinLength, htwinAll⟩ := List.forall₂_iff_get.1 hothers
  obtain ⟨asset, hasset, hkind, hstands⟩ :=
    (hall index hindex (hlength ▸ hindex)).exists_asset hhead
  obtain ⟨again, hagain, -, htwinStands⟩ :=
    (htwinAll index htwinIndex (htwinLength ▸ htwinIndex)).exists_asset htwinHead
  cases hasset.symm.trans hagain
  cases asset with
  | font face => exact absurd (hkind.symm.trans hdo) (show "Tf" ≠ "Do" by decide)
  | picture picture => rw [hstands.pictureData?_eq, htwinStands.pictureData?_eq]

end Pdf

section Targets

variable {source : Document} {pages : List ObjectId} {schedule other : Schedule}
  {found : List Target}

theorem exists_target_iff (htargets : targets source pages schedule = .ok found) {page : Nat} :
    (∃ target ∈ found, target.number = page) ↔
      (1 ≤ page ∧ page ≤ schedule.pageCount) ∧ schedule.queue page ≠ [] := by
  have hnumbers : found.map (·.number) = schedule.queues.map (·.1) := by
    refine Outcome.map_of_mapM (fun (number, commands) target htarget => ?_) htargets
    dsimp only at htarget
    split at htarget
    next =>
      cases htarget
      rfl
    next => cases htarget
  have hmem : (∃ target ∈ found, target.number = page) ↔ page ∈ schedule.queues.map (·.1) := by
    rw [← hnumbers, List.mem_map]
  rw [hmem]
  simp only [Schedule.queues, List.mem_map, List.mem_filter, List.mem_range'_1]
  constructor
  · rintro ⟨_, ⟨⟨number, hrange, rfl⟩, hcommands⟩, rfl⟩
    exact ⟨by omega, by simpa using hcommands⟩
  · rintro ⟨hrange, hcommands⟩
    exact ⟨_, ⟨⟨page, by omega, rfl⟩, by simpa using hcommands⟩, rfl⟩

end Targets

namespace Run

variable {configuration : Configuration} {script : List Command} {source result : Document}
  {pathname : String} {library shelf : Library}

def operations? (run : Run configuration script source pathname library) (page : Nat) :
    Option (List Operation) := do
  let target ← run.targets.find? (·.number = page)
  let press ← (run.pressAfter (run.targets.takeWhile (·.number ≠ page))).toOption
  let canvas ← (recordAll press (run.drawing target)).toOption
  return canvas.stamp.operations

/-- The run of a script, if it gets ready to draw. -/
def ofScript? (configuration : Configuration) (script : List Command) (source : Document)
    (pathname : String) (library : Library) :
    Option (Run configuration script source pathname library) :=
  match hscheduled : Schedule.ofScript script source.pages.length with
  | .error _ => none
  | .ok schedule =>
    match hloaded : (Stock.load library configuration.defaultFont? script).outcome with
    | .error _ => none
    | .ok stock =>
      match hfound : Overprint.targets source source.pages schedule with
      | .error _ => none
      | .ok targets => some ⟨schedule, stock, targets, hscheduled, hloaded, hfound⟩

variable {run : Run configuration script source pathname library} {page : Nat}
  {operations : List Operation} {final : Press}

/-- The first page to be drawn that has a number stands after those that have others. -/
theorem exists_order {target : Target}
    (htarget : run.targets.find? (·.number = page) = some target) : ∃ later,
      run.targets = run.targets.takeWhile (·.number ≠ page) ++ target :: later ∧
        target.number = page := by
  obtain ⟨hnumber, done, later, horder, hdone⟩ := List.find?_eq_some_iff_append.1 htarget
  have hbefore : run.targets.takeWhile (·.number ≠ page) = done := by
    rw [horder, List.takeWhile_append_of_pos (by simpa using hdone),
      List.takeWhile_cons_of_neg (by simpa using hnumber), List.append_nil]
  exact ⟨later, by rw [hbefore, horder], of_decide_eq_true hnumber⟩

theorem operations?_eq_some (hoperations : run.operations? page = some operations) :
    ∃ done target later press canvas, run.targets = done ++ target :: later ∧
      target.number = page ∧ run.pressAfter done = .ok press ∧
      recordAll press (run.drawing target) = .ok canvas ∧
      canvas.stamp.operations = operations := by
  obtain ⟨target, htarget, hoperations⟩ := Option.bind_eq_some_iff.1 hoperations
  obtain ⟨press, hpress, hoperations⟩ := Option.bind_eq_some_iff.1 hoperations
  obtain ⟨canvas, hcanvas, hoperations⟩ := Option.bind_eq_some_iff.1 hoperations
  cases hoperations
  obtain ⟨later, horder, hnumber⟩ := exists_order htarget
  exact ⟨_, target, later, press, canvas, horder, hnumber, Outcome.eq_ok_of_toOption hpress,
    Outcome.eq_ok_of_toOption hcanvas, rfl⟩

theorem exists_operations? (hfinal : run.pressAfter run.targets = .ok final)
    (hexists : ∃ target ∈ run.targets, target.number = page) :
    ∃ operations, run.operations? page = some operations := by
  have hsome : (run.targets.find? (·.number = page)).isSome := by
    simpa [List.find?_isSome] using hexists
  obtain ⟨target, htarget⟩ := Option.isSome_iff_exists.1 hsome
  obtain ⟨later, horder, -⟩ := exists_order htarget
  obtain ⟨press, stamped, hbefore, hpage, -⟩ := exists_press_of_split horder hfinal
  obtain ⟨canvas, hrecord, -, -⟩ := stampPage_eq_ok hpage
  have hcanvas : recordAll press (run.drawing target) = .ok canvas := hrecord
  refine ⟨canvas.stamp.operations, ?_⟩
  rw [operations?, htarget]
  simp only [Option.bind_eq_bind, Option.bind_some, hbefore, hcanvas, Except.toOption]
  rfl

theorem queue_eq (run : Run configuration script source pathname library)
    (hcount : 1 ≤ source.pages.length) (page : Nat) :
    run.schedule.queue page = Schedule.commandsFor script source.pages.length page :=
  Schedule.queue_of_ofScript hcount run.scheduled page

/-- A run with a naming operation at some place of a page, where evaluation finds one. -/
theorem exists_naming {index : Nat} {naming : String × String}
    (hnaming : ((ofScript? configuration script source pathname library).bind fun run =>
      (run.operations? page).bind fun operations => operations[index]?.bind Operation.naming?) =
        some naming) :
    ∃ (run : Run configuration script source pathname library) (operations : List Operation),
      run.operations? page = some operations ∧
        operations[index]?.bind Operation.naming? = some naming := by
  obtain ⟨run, -, hrun⟩ := Option.bind_eq_some_iff.1 hnaming
  obtain ⟨operations, hoperations, hname⟩ := Option.bind_eq_some_iff.1 hrun
  exact ⟨run, operations, hoperations, hname⟩

theorem operations?_eq_none (hnone : ¬ ∃ target ∈ run.targets, target.number = page) :
    run.operations? page = none := by
  have htarget : run.targets.find? (·.number = page) = none := by
    simpa [List.find?_eq_none] using hnone
  rw [operations?, htarget]
  rfl

/-- In the result the operations of a page read as those of its drawing. -/
theorem reads_of_operations? (hnumbered : source.Numbered) (hfaithful : shelf.Faithful)
    (hcovers : shelf.Covers library) (hfinal : run.pressAfter run.targets = .ok final)
    (hoperations : run.operations? page = some operations) :
    ∃ target ∈ run.targets, target.number = page ∧
      List.Forall₂ (Operation.Reads (final.finish.Stands target.id)) operations
        (rendered none (run.drawing target).trace) := by
  obtain ⟨done, target, later, press, canvas, horder, hnumber, hbefore, hrecord, rfl⟩ :=
    operations?_eq_some hoperations
  have htargets : ∀ other ∈ done ++ target :: later, other ∈ run.targets := by
    rw [← horder]
    exact fun _ hmem => hmem
  obtain ⟨hdone, hremaining⟩ := List.forall_mem_append.1 htargets
  obtain ⟨htarget, hlater⟩ := List.forall_mem_cons.1 hremaining
  obtain ⟨start, stamped, hstart, hpage, hrest⟩ := exists_press_of_split horder hfinal
  rw [hbefore] at hstart
  cases hstart
  obtain ⟨drawn, hdrawn, hattach, rfl⟩ := stampPage_eq_ok hpage
  cases hrecord.symm.trans hdrawn
  have hpress := underway_foldlM hnumbered hcovers hdone (run.underway_start hnumbered shelf) hbefore
  have hstamped := underway_stampPage hnumbered hcovers hpress htarget hpage
  have hend := underway_foldlM hnumbered hcovers hlater hstamped hrest
  obtain ⟨place, old, entries, hlocate, -, hplace, hcurrent⟩ :=
    locate_of_recordAll hnumbered hpress htarget hrecord
  obtain ⟨hcanvas, -⟩ := canvas_of_recordAll hcovers hpress hrecord
  have hregistered := Canvas.registered_start hpress.registered
  obtain ⟨own, hown, hreads⟩ := hregistered.foldlM_record_rendered
    (run.usesOf_drawing hcovers hrecord) (recordAll_eq_ok hrecord).1
  rw [hown, List.nil_append]
  refine ⟨target, htarget, hnumber, hreads.imp fun _ _ h => h.mono fun asset name hstands => ?_⟩
  obtain ⟨hprovides, id, hhas, hname⟩ := hstands
  have hnamed : Named (canvas.press.attach target.id canvas.stamp).2 place asset name id :=
    ⟨Press.retains_attach _ _ _ _ _ _ hhas,
      Press.bindsAt_attach_of_get? hcanvas.press.numbered hcurrent hname⟩
  have hkept := named_foldlM hnumbered hcovers hlater hstamped hrest hnamed
  exact ⟨id, resolves_finish hnumbered hend hlocate hplace hkept hfaithful hprovides⟩

end Run

section Pair

variable {configuration : Configuration} {script otherScript : List Command}
  {source result otherResult : Document} {pathname : String} {library : Library}
  {first : Run configuration script source pathname library}
  {second : Run configuration otherScript source pathname library} {target twin : Target}

theorem Run.drawing_congr (htarget : target ∈ first.targets)
    (hsame : first.schedule.queue target.number = second.schedule.queue target.number) :
    first.drawing target = second.drawing target := by
  obtain ⟨-, -, hcommands, -⟩ := target_of_mem first.found htarget
  obtain ⟨hface, halike⟩ := Stock.alike_of_load first.loaded second.loaded
  have hnamed : ∀ command ∈ target.commands, ∀ request ∈ command.request?,
      first.stock.Alike second.stock request := by
    intro command hmem
    rw [hcommands] at hmem
    exact halike command (Schedule.mem_of_mem_queue first.scheduled hmem)
      (Schedule.mem_of_mem_queue second.scheduled (hsame ▸ hmem))
  let scene : Scene := {
    frame := target.frame
    place := { page := target.number, pageCount := source.pages.length, pathname }
    stock := first.stock }
  exact scene.page_congr hface hnamed configuration.defaults

/-- Two runs that draw a page with the same commands have the same in mind. -/
theorem Run.target_eq (htarget : target ∈ first.targets) (htwin : twin ∈ second.targets)
    (hnumber : twin.number = target.number)
    (hsame : first.schedule.queue target.number = second.schedule.queue target.number) :
    twin = target := by
  obtain ⟨-, hid, hcommands, hframe⟩ := target_of_mem first.found htarget
  obtain ⟨-, hother, hothers, hsize⟩ := target_of_mem second.found htwin
  rw [hnumber, hid, Option.some.injEq] at hother
  rw [hnumber, ← hsame, ← hcommands] at hothers
  rw [← hother, ← hframe] at hsize
  obtain ⟨number, id, frame, commands⟩ := target
  obtain ⟨_, _, _, _⟩ := twin
  cases hnumber
  cases hother
  cases hothers
  cases hsize
  rfl

theorem Run.targets_eq (hsame : ∀ index page, source.pages[index]? = some page →
      first.schedule.queue (index + 1) = second.schedule.queue (index + 1)) :
    second.targets = first.targets := by
  have hqueues : second.schedule.queues = first.schedule.queues := by
    rw [Schedule.queues, Schedule.queues, Schedule.pageCount_of_ofScript first.scheduled,
      Schedule.pageCount_of_ofScript second.scheduled]
    congr 1
    refine List.map_congr_left fun page hmem => ?_
    obtain ⟨hpositive, hlast⟩ := List.mem_range'_1.1 hmem
    have hindex : page - 1 < source.pages.length := by omega
    have hqueue := hsame (page - 1) _ (List.getElem?_eq_getElem hindex)
    rw [Nat.sub_add_cancel hpositive] at hqueue
    rw [hqueue]
  have hfound := second.found
  rw [Overprint.targets, hqueues] at hfound
  exact (Except.ok.inj (first.found.symm.trans hfound)).symm

theorem Run.pressAfter_eq (hsame : ∀ index page, source.pages[index]? = some page →
      first.schedule.queue (index + 1) = second.schedule.queue (index + 1)) :
    second.pressAfter second.targets = first.pressAfter first.targets := by
  rw [targets_eq hsame]
  refine Outcome.foldlM_congr (fun target hmem press => ?_) _
  obtain ⟨-, hid, -, -⟩ := target_of_mem first.found hmem
  obtain ⟨⟨hpositive, -⟩, -⟩ := (exists_target_iff first.found).1 ⟨target, hmem, rfl⟩
  have hqueue := hsame (target.number - 1) target.id hid
  rw [Nat.sub_add_cancel hpositive] at hqueue
  have hdrawing := drawing_congr hmem hqueue
  rw [drawing, drawing, Target.drawing, Target.drawing] at hdrawing
  rw [stampPage, stampPage, Overprint.stampPage, Overprint.stampPage, hdrawing]

/-- In both results the operations of a page with the same commands read as one drawing. -/
theorem Run.exists_readings {final otherFinal : Press} {index : Nat} {page : ObjectId}
    (hnumbered : source.Numbered) (hcoherent : library.Coherent)
    (hfirst : first.pressAfter first.targets = .ok final)
    (hsecond : second.pressAfter second.targets = .ok otherFinal)
    (hpage : source.pages[index]? = some page)
    (hsame : first.schedule.queue (index + 1) = second.schedule.queue (index + 1))
    (hqueue : first.schedule.queue (index + 1) ≠ []) :
    ∃ operations others readings, first.operations? (index + 1) = some operations ∧
      second.operations? (index + 1) = some others ∧
      List.Forall₂ (Operation.Reads (final.finish.Stands page)) operations readings ∧
      List.Forall₂ (Operation.Reads (otherFinal.finish.Stands page)) others readings := by
  have hindex : index < source.pages.length := (List.getElem?_eq_some_iff.1 hpage).1
  have hrange : 1 ≤ index + 1 ∧ index + 1 ≤ source.pages.length := by omega
  rw [← Schedule.pageCount_of_ofScript first.scheduled] at hrange
  have hexists := (exists_target_iff first.found).2 ⟨hrange, hqueue⟩
  rw [Schedule.pageCount_of_ofScript first.scheduled,
    ← Schedule.pageCount_of_ofScript second.scheduled] at hrange
  have hothers := (exists_target_iff second.found).2 ⟨hrange, hsame ▸ hqueue⟩
  obtain ⟨operations, hoperations⟩ := exists_operations? hfirst hexists
  obtain ⟨others, hotherOperations⟩ := exists_operations? hsecond hothers
  obtain ⟨shelf, hfaithful, hcovers⟩ := hcoherent.exists_shelf
  obtain ⟨target, htarget, hnumber, hreads⟩ :=
    reads_of_operations? hnumbered hfaithful hcovers hfirst hoperations
  obtain ⟨twin, htwin, htwinNumber, htwinReads⟩ :=
    reads_of_operations? hnumbered hfaithful hcovers hsecond hotherOperations
  rw [← hnumber] at hsame htwinNumber
  rw [target_eq htarget htwin htwinNumber hsame, ← drawing_congr htarget hsame] at htwinReads
  obtain ⟨-, hid, -, -⟩ := target_of_mem first.found htarget
  rw [hnumber, Nat.add_sub_cancel, hpage, Option.some.injEq] at hid
  rw [← hid] at hreads htwinReads
  exact ⟨operations, others, _, hoperations, hotherOperations, hreads, htwinReads⟩

end Pair

/-- Pages do not interfere, if the library is coherent. Where two scripts give a page the same commands,
what is recorded for the page is the same in both runs, as soon as every name is read as the font or
picture that the resources of the page bind it to, whatever the scripts do on other pages. If they give
the same commands to every page, they make the same document. -/
theorem stamp_pages_independent {configuration : Configuration} {script otherScript : List Command}
    {source result otherResult : Document} {pathname : String} {library : Library}
    (hnumbered : source.Numbered)
    (hfirst : (stamp configuration script source pathname library).outcome = .ok result)
    (hsecond : (stamp configuration otherScript source pathname library).outcome = .ok otherResult) :
    ∃ (first : Run configuration script source pathname library)
      (second : Run configuration otherScript source pathname library),
      (library.Coherent → ∀ index page, source.pages[index]? = some page →
        first.schedule.queue (index + 1) = second.schedule.queue (index + 1) →
        (first.schedule.queue (index + 1) = [] ∧ first.operations? (index + 1) = none ∧
          second.operations? (index + 1) = none) ∨
        ∃ operations others readings, first.operations? (index + 1) = some operations ∧
          second.operations? (index + 1) = some others ∧
          List.Forall₂ (Operation.Reads (result.Stands page)) operations readings ∧
          List.Forall₂ (Operation.Reads (otherResult.Stands page)) others readings) ∧
      ((∀ index page, source.pages[index]? = some page →
        first.schedule.queue (index + 1) = second.schedule.queue (index + 1)) →
        otherResult = result) := by
  obtain ⟨schedule, stock, found, hschedule, hstock, hfound, hpages⟩ := stamp_eq_ok hfirst
  obtain ⟨otherSchedule, otherStock, otherFound, hotherSchedule, hotherStock, hotherFound,
    hotherPages⟩ := stamp_eq_ok hsecond
  obtain ⟨final, hfinal, hfinish⟩ := Outcome.bind_eq_ok.1 hpages
  obtain ⟨otherFinal, hotherFinal, hotherFinish⟩ := Outcome.bind_eq_ok.1 hotherPages
  cases hfinish
  cases hotherFinish
  let first : Run configuration script source pathname library :=
    ⟨schedule, stock, found, hschedule, hstock, hfound⟩
  let second : Run configuration otherScript source pathname library :=
    ⟨otherSchedule, otherStock, otherFound, hotherSchedule, hotherStock, hotherFound⟩
  have hrun : first.pressAfter first.targets = .ok final := hfinal
  have hotherRun : second.pressAfter second.targets = .ok otherFinal := hotherFinal
  refine ⟨first, second, fun hcoherent index page hpage hsame => ?_, fun hsame => ?_⟩
  · by_cases hqueue : first.schedule.queue (index + 1) = []
    · refine .inl ⟨hqueue, Run.operations?_eq_none fun h => ?_, Run.operations?_eq_none fun h => ?_⟩
      · exact ((exists_target_iff first.found).1 h).2 hqueue
      · exact ((exists_target_iff second.found).1 h).2 (hsame ▸ hqueue)
    · exact .inr (Run.exists_readings hnumbered hcoherent hrun hotherRun hpage hsame hqueue)
  · have hpress : second.pressAfter second.targets = first.pressAfter first.targets :=
      Run.pressAfter_eq hsame
    rw [hotherRun, hrun, Except.ok.injEq] at hpress
    rw [hpress]

/-- Two pages in a font of their own, one of them alone, and both in the other order. -/
theorem stamp_pages_independent_of_fonts :
    let source := Document.ofObjects
      [(⟨1, 0⟩, .dictionary [("Type", .name "Catalog"), ("Pages", .reference ⟨2, 0⟩)]),
        (⟨2, 0⟩, .dictionary [("Type", .name "Pages"),
          ("Kids", .array [.reference ⟨3, 0⟩, .reference ⟨4, 0⟩])]),
        (⟨3, 0⟩, .dictionary [("Type", .name "Page")]),
        (⟨4, 0⟩, .dictionary [("Type", .name "Page")])]
      [("Root", .reference ⟨1, 0⟩)]
    let library : Library := {
      font := fun name => if name = "Courier" then .ok (.standard .courier) else .ok default
      picture := fun path => .ok { path, width := 1, height := 1, data := .samples [0, 0, 0] none } }
    let one : List Command := [
      { verb := .pages, operands := [⟨"1"⟩] },
      { verb := .fontFile, operands := [⟨"Courier"⟩] },
      { verb := .text, operands := [⟨"A"⟩] }]
    let two : List Command := [
      { verb := .pages, operands := [⟨"2"⟩] },
      { verb := .text, operands := [⟨"B"⟩] },
      { verb := .image, operands := [⟨"b.ppm"⟩, ⟨"0"⟩, ⟨"0"⟩] }]
    source.Numbered ∧ library.Coherent ∧
      ∃ result otherResult, (stamp {} (one ++ two) source "a.pdf" library).outcome = .ok result ∧
        (stamp {} two source "a.pdf" library).outcome = .ok otherResult ∧
        (stamp {} (two ++ one) source "a.pdf" library).outcome = .ok result ∧
        ∃ (first : Run {} (one ++ two) source "a.pdf" library)
          (second : Run {} two source "a.pdf" library) (operations others : List Operation)
          (readings : List Rendered),
          first.operations? 2 = some operations ∧ second.operations? 2 = some others ∧
            List.Forall₂ (Operation.Reads (result.Stands ⟨4, 0⟩)) operations readings ∧
            List.Forall₂ (Operation.Reads (otherResult.Stands ⟨4, 0⟩)) others readings := by
  intro source library one two
  have hnumbered : source.Numbered := Document.numbered_ofObjects _ _
  have hcoherent : library.Coherent := by
    refine ⟨fun first font second other hfirst _ _ => ?_,
      fun first picture second other hfirst hsecond _ => ?_⟩
    · simp only [library] at hfirst
      split at hfirst <;> cases hfirst
    · cases hfirst
      cases hsecond
      rfl
  obtain ⟨result, hfirst⟩ : ∃ result,
      (stamp {} (one ++ two) source "a.pdf" library).outcome = .ok result :=
    Outcome.exists_eq_ok (by decide +kernel)
  obtain ⟨otherResult, hsecond⟩ : ∃ result,
      (stamp {} two source "a.pdf" library).outcome = .ok result :=
    Outcome.exists_eq_ok (by decide +kernel)
  obtain ⟨swapped, hswapped⟩ : ∃ result,
      (stamp {} (two ++ one) source "a.pdf" library).outcome = .ok result :=
    Outcome.exists_eq_ok (by decide +kernel)
  have hcount : 1 ≤ source.pages.length := by decide +kernel
  obtain ⟨first, second, hreadings, -⟩ := stamp_pages_independent hnumbered hfirst hsecond
  obtain ⟨third, fourth, -, hequal⟩ := stamp_pages_independent hnumbered hfirst hswapped
  have hswap : swapped = result := by
    refine hequal fun index page hpage => ?_
    have hindex : index < source.pages.length := (List.getElem?_eq_some_iff.1 hpage).1
    have hall : ∀ index < source.pages.length,
        Schedule.commandsFor (one ++ two) source.pages.length (index + 1) =
          Schedule.commandsFor (two ++ one) source.pages.length (index + 1) := by
      decide +kernel
    rw [third.queue_eq hcount, fourth.queue_eq hcount, hall index hindex]
  have hsame : first.schedule.queue 2 = second.schedule.queue 2 := by
    rw [first.queue_eq hcount, second.queue_eq hcount]
    decide +kernel
  have hne : first.schedule.queue 2 ≠ [] := by
    rw [first.queue_eq hcount]
    decide +kernel
  have hpage : source.pages[1]? = some ⟨4, 0⟩ := by decide +kernel
  rcases hreadings hcoherent 1 ⟨4, 0⟩ hpage hsame with ⟨hnil, -⟩ | hread
  · exact absurd hnil hne
  · exact ⟨hnumbered, hcoherent, result, otherResult, hfirst, hsecond, hswap ▸ hswapped, first, second,
      hread⟩

/-- Not so if two pictures have one path. The second page is given the picture that is drawn there, or
the other one if the first page is drawn with that. -/
theorem stamp_pages_interfere_by_path :
    let source := Document.ofObjects
      [(⟨1, 0⟩, .dictionary [("Type", .name "Catalog"), ("Pages", .reference ⟨2, 0⟩)]),
        (⟨2, 0⟩, .dictionary [("Type", .name "Pages"),
          ("Kids", .array [.reference ⟨3, 0⟩, .reference ⟨4, 0⟩])]),
        (⟨3, 0⟩, .dictionary [("Type", .name "Page")]),
        (⟨4, 0⟩, .dictionary [("Type", .name "Page")])]
      [("Root", .reference ⟨1, 0⟩)]
    let library : Library := {
      font := fun _ => .ok default
      picture := fun path => .ok {
        path
        width := 1
        height := 1
        data := .samples (if path = "a/b.ppm" then [0, 0, 0] else [255, 255, 255]) none } }
    let two : List Command := [
      { verb := .pages, operands := [⟨"2"⟩] },
      { verb := .image, operands := [⟨"a//b.ppm"⟩, ⟨"0"⟩, ⟨"0"⟩] }]
    let one : List Command := [{ verb := .image, operands := [⟨"a/b.ppm"⟩, ⟨"0"⟩, ⟨"0"⟩] }]
    source.Numbered ∧ source.pages[1]? = some ⟨4, 0⟩ ∧
      ∃ result otherResult, (stamp {} (one ++ two) source "a.pdf" library).outcome = .ok result ∧
        (stamp {} two source "a.pdf" library).outcome = .ok otherResult ∧
        ∃ (first : Run {} (one ++ two) source "a.pdf" library)
          (second : Run {} two source "a.pdf" library),
          first.schedule.queue 2 = second.schedule.queue 2 ∧
          ∃ operations others, first.operations? 2 = some operations ∧
            second.operations? 2 = some others ∧
            ¬ ∃ readings, List.Forall₂ (Operation.Reads (result.Stands ⟨4, 0⟩)) operations readings ∧
              List.Forall₂ (Operation.Reads (otherResult.Stands ⟨4, 0⟩)) others readings := by
  intro source library two one
  obtain ⟨result, hsome, hresult⟩ : ∃ result,
      (stamp {} (one ++ two) source "a.pdf" library).outcome.toOption = some result ∧
        result.pictureData? ⟨4, 0⟩ "PdfStampI1" = some [0, 0, 0] :=
    Option.bind_eq_some_iff.1 (by decide +kernel)
  obtain ⟨otherResult, hotherSome, hother⟩ : ∃ result,
      (stamp {} two source "a.pdf" library).outcome.toOption = some result ∧
        result.pictureData? ⟨4, 0⟩ "PdfStampI1" = some [255, 255, 255] :=
    Option.bind_eq_some_iff.1 (by decide +kernel)
  have hnaming (script : List Command)
      (hfinds : (Run.ofScript? {} script source "a.pdf" library).bind (fun run =>
        (run.operations? 2).bind fun operations => operations[6]?.bind Operation.naming?) =
          some ("Do", "PdfStampI1")) := Run.exists_naming hfinds
  obtain ⟨first, operations, hoperations, hname⟩ := hnaming (one ++ two) (by decide +kernel)
  obtain ⟨second, others, hothers, hfound⟩ := hnaming two (by decide +kernel)
  have hcount : 1 ≤ source.pages.length := by decide +kernel
  have hsame : first.schedule.queue 2 = second.schedule.queue 2 := by
    rw [first.queue_eq hcount, second.queue_eq hcount]
    decide +kernel
  refine ⟨Document.numbered_ofObjects _ _, by decide +kernel, result, otherResult,
    Outcome.eq_ok_of_toOption hsome, Outcome.eq_ok_of_toOption hotherSome, first, second, hsame,
    operations, others, hoperations, hothers, ?_⟩
  rintro ⟨readings, hreads, hotherReads⟩
  have hdata := pictureData?_eq_of_reads hreads hotherReads hname hfound
  rw [hresult, hother] at hdata
  exact absurd hdata (by decide)

end Overprint
