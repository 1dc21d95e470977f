import Overprint.Proofs.Drawing.Faults
import Overprint.Proofs.Page.Assignment
import Overprint.Proofs.Pdf.Recording
import Overprint.Stamping

/-!
# What was read is drawn

A page of commands that were read from a command line, and loaded for, is drawn and recorded unless
one of them has a fault; then it ends in the first fault. No operand is missing or of the wrong
kind, no font or picture is not at hand, and no text is shown before there is a font.
-/

namespace Overprint

open Drawing Page Pdf Script

variable {scene : Scene} {commands : List Command}

/-- Every command has its form and finds what it names. -/
def Drawing.Scene.Ready (scene : Scene) (commands : List Command) : Prop :=
  ∀ command ∈ commands, command.Admitted ∧
    ∀ request ∈ command.request?, scene.stock.Provides request

namespace Drawing.Scene

theorem foldlM_perform_endsIn (hready : scene.Ready commands) (pen : Pen) :
    (commands.foldlM scene.perform pen).EndsIn (commands.findSome? Command.fault?) := by
  induction commands generalizing pen with
  | nil => exact ⟨pen, rfl⟩
  | cons command rest ih =>
    obtain ⟨hadmitted, hprovides⟩ := hready command List.mem_cons_self
    have hrest := ih fun other hmem => hready other (List.mem_cons_of_mem command hmem)
    have hcommand : (scene.perform pen command).EndsIn command.fault? :=
      perform_endsIn hadmitted hprovides
    rw [List.foldlM_cons, List.findSome?_cons]
    cases hfault : command.fault? with
    | none =>
      rw [hfault] at hcommand
      exact .bind hcommand fun next _ => hrest next
    | some failure =>
      rw [hfault] at hcommand
      exact hcommand.bind_fails _

theorem run_endsIn (hready : scene.Ready commands) (style : Style) :
    (scene.run style commands).EndsIn (commands.findSome? Command.fault?) := by
  rw [run_eq]
  refine Traced.EndsIn.bind ⟨(), rfl⟩ fun _ _ => ?_
  exact (foldlM_perform_endsIn hready { style }).bind_succeeds fun pen _ => ⟨(), rfl⟩

theorem page_endsIn {defaults : Defaults}
    (hfill : (Color.Rgb.read defaults.fillColor).Succeeds)
    (hstroke : (Color.Rgb.read defaults.strokeColor).Succeeds) (hready : scene.Ready commands) :
    (scene.page defaults commands).EndsIn (commands.findSome? Command.fault?) := by
  have hstyle : (Style.ofDefaults defaults scene.stock.defaultFont).Succeeds :=
    hfill.bind fun _ _ => hstroke.bind fun _ _ => .pure _
  exact .check hstyle fun style _ => run_endsIn hready style

end Drawing.Scene

namespace Pdf.Recordable

variable {α β : Type}

theorem bind {work : Sketch α} {next : α → Sketch β} (hfirst : Recordable work.trace)
    (hnext : ∀ value, Recordable (next value).trace) : Recordable (work >>= next).trace := by
  cases houtcome : work.outcome with
  | ok value =>
    rw [Traced.trace_bind_of_ok next houtcome]
    exact hfirst.append (hnext value)
  | error failure =>
    rw [Traced.bind_of_error next houtcome]
    exact hfirst

theorem of_step {pen after : Pen} {command : Command} {calls : List Call}
    (hstep : Step scene pen command calls after) : Recordable calls := by
  by_cases hverb : command.verb = .text
  · obtain ⟨position?, shown, content, -, rfl⟩ := hstep.of_text hverb
    simp only [List.append_assoc]
    exact (of_isSilent pen.silent_opening).append (apply_append shown _)
  · exact of_isSilent (hstep.silent hverb)

theorem perform (pen : Pen) (command : Command) :
    Recordable (scene.perform pen command).trace := by
  cases houtcome : (scene.perform pen command).outcome with
  | ok after => exact of_step (step_of_perform (Traced.eq_of_outcome houtcome))
  | error failure => exact of_isSilent (silent_of_error houtcome)

theorem foldlM_perform (pen : Pen) (commands : List Command) :
    Recordable (commands.foldlM scene.perform pen).trace := by
  induction commands generalizing pen with
  | nil => exact nil
  | cons command rest ih =>
    rw [List.foldlM_cons]
    exact (perform pen command).bind fun next => ih next

theorem page (defaults : Defaults) (commands : List Command) :
    Recordable (scene.page defaults commands).trace := by
  refine bind nil fun style => ?_
  rw [run_eq]
  refine bind (of_isSilent (silent_entered style)) fun _ => ?_
  exact bind (foldlM_perform { style } commands) fun pen => of_isSilent pen.silent_closing

end Pdf.Recordable

theorem recordAll_endsIn {fault? : Option Failure} {drawing : Sketch Unit}
    (hrecordable : Recordable drawing.trace) (hends : drawing.EndsIn fault?) (press : Press) :
    (recordAll press drawing).EndsIn fault? := by
  refine .bind (hrecordable { press }) fun canvas _ => ?_
  have houtcome : drawing.outcome.EndsIn fault? := hends
  exact houtcome.bind_succeeds fun _ _ => .pure canvas

theorem ready_queue {arguments : List String} {line : Line} (hread : read arguments = .ok line)
    {library : Library} {defaultFont? : Option String} {stock : Stock}
    (hload : (Stock.load library defaultFont? line.commands).outcome = .ok stock)
    {pageCount : Nat} {schedule : Schedule}
    (hschedule : Schedule.ofScript line.commands pageCount = .ok schedule)
    (hstock : scene.stock = stock) (page : Nat) : scene.Ready (schedule.queue page) := by
  intro command hmem
  have hcommand := Schedule.mem_of_mem_queue hschedule hmem
  rw [hstock]
  exact ⟨admitted_of_read hread command hcommand, Stock.provides_of_load hload command hcommand⟩

theorem fault?_kinds {command : Command} {failure : Failure} (hfault : command.fault? = some failure) :
    failure = .curveOperands 5 ∨ failure = .textOperands 2 ∨ failure = .emptyLiteral ∨
      ∃ word, failure = .invalidCorner word := by
  have hcorner (hfault : command.cornerFault? = some failure) :
      ∃ word, failure = .invalidCorner word := by
    obtain ⟨corner, -, hfault⟩ := Option.bind_eq_some_iff.1 hfault
    dsimp only at hfault
    split at hfault
    · cases hfault
    · cases hfault
      exact ⟨_, rfl⟩
  rw [Command.fault?] at hfault
  split at hfault
  · split at hfault <;> cases hfault
    exact .inl rfl
  · split at hfault <;> cases hfault
    exact .inr (.inl rfl)
  · split at hfault <;> cases hfault
    exact .inr (.inr (.inl rfl))
  · exact .inr (.inr (.inr (hcorner hfault)))
  · exact .inr (.inr (.inr (hcorner hfault)))
  · exact .inr (.inr (.inr (hcorner hfault)))
  · cases hfault

/-- Drawing and recording a page of a script that was read and loaded for fails if and only if a
command of the page has a fault. The failure is the first fault of the page, of one of four kinds. -/
theorem recordAll_page_fails_iff {arguments : List String} {line : Line}
    (hread : read arguments = .ok line)
    {library : Library} {defaultFont? : Option String} {stock : Stock}
    (hload : (Stock.load library defaultFont? line.commands).outcome = .ok stock)
    {pageCount : Nat} {schedule : Schedule}
    (hschedule : Schedule.ofScript line.commands pageCount = .ok schedule)
    {defaults : Defaults} (hfill : (Color.Rgb.read defaults.fillColor).Succeeds)
    (hstroke : (Color.Rgb.read defaults.strokeColor).Succeeds)
    (page : Nat) (frame : Geometry.Frame Number.Double) (place : Place) (press : Press) :
    let scene : Scene := { frame, place, stock }
    let queue := schedule.queue page
    ((∃ failure, recordAll press (scene.page defaults queue) = .error failure) ↔
      ∃ command ∈ queue, command.fault?.isSome) ∧
    ∀ failure, recordAll press (scene.page defaults queue) = .error failure →
      queue.findSome? Command.fault? = some failure ∧
      (failure = .curveOperands 5 ∨ failure = .textOperands 2 ∨ failure = .emptyLiteral ∨
        ∃ word, failure = .invalidCorner word) := by
  intro scene queue
  have hready : scene.Ready queue := ready_queue hread hload hschedule rfl page
  have hends : (recordAll press (scene.page defaults queue)).EndsIn
      (queue.findSome? Command.fault?) :=
    recordAll_endsIn (.page defaults queue) (Scene.page_endsIn hfill hstroke hready) press
  refine ⟨?_, fun failure herror => ?_⟩
  · rw [hends.exists_error_iff, List.findSome?_isSome_iff]
  · have hfirst := hends.eq_of_error herror
    obtain ⟨command, -, hfault⟩ := List.exists_of_findSome?_eq_some hfirst
    exact ⟨hfirst, fault?_kinds hfault⟩

/-- Half a position is read, but drawing the text fails. -/
theorem recordAll_page_fails_by_half_position :
    let commands : List Command :=
      [{ verb := .fontFile, operands := [⟨"Courier"⟩] },
        { verb := .text, operands := [⟨"Hi"⟩, ⟨"1"⟩] }]
    let stock : Stock := { fonts := (∅ : SortedMap String Font).insert "Courier" default }
    let scene : Scene := {
      frame := ⟨612.0, 792.0⟩
      place := { page := 1, pageCount := 1, pathname := "a.pdf" }
      stock }
    let press : Press := { document := .ofObjects [] [], layer := .over }
    read ["-ff", "Courier", "-t", "Hi:1"] = .ok ⟨commands, []⟩ ∧
      recordAll press (scene.page {} commands) = .error (.textOperands 2) := by
  intro commands stock scene press
  have hoption : (read ["-ff", "Courier", "-t", "Hi:1"]).toOption = some ⟨commands, []⟩ := by
    decide +kernel
  have hread := Outcome.eq_ok_of_toOption hoption
  let library : Library := {
    font := fun _ => .ok default
    picture := fun path => .error (.pictureNotLoaded path) }
  have hload : (Stock.load library none commands).outcome = .ok stock := rfl
  let schedule : Schedule := ⟨1, commands.map fun command => (Selection.initial 1, command)⟩
  have hschedule : Schedule.ofScript commands 1 = .ok schedule := rfl
  have hqueue : schedule.queue 1 = commands := by decide
  have hfill : (Color.Rgb.read ({} : Defaults).fillColor).Succeeds := ⟨.ofBytes 0 0 0, rfl⟩
  have hstroke : (Color.Rgb.read ({} : Defaults).strokeColor).Succeeds := ⟨.ofBytes 0 0 0, rfl⟩
  obtain ⟨hfails, hfirst⟩ := recordAll_page_fails_iff hread hload hschedule hfill hstroke 1
    scene.frame scene.place press
  obtain ⟨failure, herror⟩ := hfails.2 ⟨commands[1], by decide, by decide⟩
  have hfault := (hfirst failure herror).1
  rw [hqueue] at hfault herror
  cases hfault
  exact ⟨hread, herror⟩

end Overprint
