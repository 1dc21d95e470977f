import Overprint.Proofs.Color.Shares
import Overprint.Proofs.Drawing.Colors
import Overprint.Proofs.Pdf.Operands
import Overprint.Proofs.Script.Admission
import Overprint.Proofs.Stamping

/-!
# Recorded colours are in range

The operands of a page's colour operations are the numbers of the colours that the page is given. So
all of them are finite and lie from zero to one just when no text among those that give the colours
has the word for what is not a number in it.
-/

namespace Overprint

open Color Drawing Number Script

namespace Pdf

/-- The number is one of those by which the operation sets a colour. -/
def Operation.Tints (operation : Operation) (x : Single) : Prop :=
  operation.operator ∈ colorOperators ∧ ∃ operand ∈ operation.operands, operand.Contains x

/-- The operations set the colours that the calls set, and no others. -/
def Tint (operations : List Operation) (calls : List Call) : Prop :=
  ∀ x, (∃ operation ∈ operations, operation.Tints x) ↔
    ∃ color, Sets calls color ∧ x ∈ color.components

/-- All colours of a stamp are set by finite numbers from zero to one. -/
def Stamp.HasColorsInRange (stamp : Stamp) : Prop :=
  ∀ operation ∈ stamp.operations, ∀ x, operation.Tints x → IsShare x ∧ x.isFinite = true

namespace Tint

variable {operations others : List Operation} {calls more : List Call} {operator : String}

theorem nil : Tint [] [] := by
  intro x
  simp only [Sets, List.not_mem_nil, false_and, exists_false]

theorem append (hfirst : Tint operations calls) (hsecond : Tint others more) :
    Tint (operations ++ others) (calls ++ more) := by
  intro x
  simp only [List.mem_append, or_and_right, exists_or, hfirst x, hsecond x, sets_append]

theorem none {call : Call} (hcall : call.color? = .none)
    (hnone : ∀ operation ∈ operations, ∀ x, ¬ operation.Tints x) : Tint operations [call] := by
  intro x
  have hsets (color : Rgb) : ¬ Sets [call] color :=
    not_sets fun other hmem => List.mem_singleton.1 hmem ▸ hcall
  have htints : ¬ ∃ operation ∈ operations, operation.Tints x := by
    rintro ⟨operation, hmem, htints⟩
    exact hnone operation hmem x htints
  simp only [hsets, htints, false_and, exists_false]

theorem other {call : Call} {operation : Operation} (hcall : call.color? = .none)
    (hoperator : operation.operator ∉ colorOperators) : Tint [operation] [call] := by
  refine none hcall fun other hmem x htints => ?_
  cases List.mem_singleton.1 hmem
  exact hoperator htints.1

theorem bare {call : Call} (hcall : call.color? = .none) : Tint [{ operator }] [call] := by
  refine none hcall fun other hmem x htints => ?_
  cases List.mem_singleton.1 hmem
  obtain ⟨-, operand, hoperand, -⟩ := htints
  cases hoperand

theorem reals {call : Call} {numbers : List Double} (hcall : call.color? = .none)
    (hoperator : operator ∉ colorOperators) : Tint [Pdf.reals operator numbers] [call] :=
  other hcall hoperator

theorem integer {call : Call} {value : Int} (hcall : call.color? = .none)
    (hoperator : operator ∉ colorOperators) : Tint [integerOperation operator value] [call] :=
  other hcall hoperator

theorem color {call : Call} {color : Rgb} (hoperator : operator ∈ colorOperators)
    (hcall : call.color? = some color) : Tint [colorOperation operator color] [call] := by
  intro x
  have hcontains : (∃ operand ∈ color.components.map Object.real, operand.Contains x) ↔
      x ∈ color.components := by
    constructor
    · rintro ⟨_, hmem, hoperand⟩
      obtain ⟨y, hy, rfl⟩ := List.mem_map.1 hmem
      cases hoperand
      exact hy
    · exact fun hx => ⟨.real x, List.mem_map_of_mem hx, .real x⟩
  simp only [List.mem_singleton, exists_eq_left, Operation.Tints, colorOperation, hoperator,
    true_and, hcontains, Sets, hcall, Option.some.injEq, exists_eq_left']

end Tint

theorem plainOperation?_tint {call : Call} {operation : Operation}
    (hoperation : plainOperation? call = some operation) : Tint [operation] [call] := by
  cases call with
  | path segment =>
    cases hoperation
    cases segment with
    | close => exact .bare rfl
    | _ => exact .reals rfl (by decide)
  | fillColor color | strokeColor color => cases hoperation; exact .color (by decide) rfl
  | lineWidth | miterLimit | leading | charSpacing | wordSpacing | rise | horizontalScaling
  | textMatrix => cases hoperation; exact .reals rfl (by decide)
  | dash pattern phase =>
    have hoperator : "d" ∉ colorOperators := by decide
    cases hoperation
    exact .other rfl hoperator
  | lineCap | lineJoin | renderingMode => cases hoperation; exact .integer rfl (by decide)
  | paint | save | restore | beginText | endText | nextLine | literal =>
    cases hoperation; exact .bare rfl
  | font | showText | picture => cases hoperation

namespace Canvas

variable {canvas after : Canvas} {call : Call} {calls : List Call}

theorem record_tint (hrecord : canvas.record call = .ok after) :
    ∃ operations, after.stamp.operations = canvas.stamp.operations ++ operations ∧
      Tint operations [call] := by
  cases call with
  | font face size =>
    have hoperator : "Tf" ∉ colorOperators := by decide
    cases hrecord
    exact ⟨_, rfl, .other rfl hoperator⟩
  | showText text =>
    have hoperator : "Tj" ∉ colorOperators := by decide
    cases hfont : canvas.font? with
    | none =>
      rw [record, showText, hfont] at hrecord
      cases hrecord
    | some font =>
      rw [record, showText, hfont] at hrecord
      cases hrecord
      exact ⟨_, rfl, .other rfl hoperator⟩
  | picture shown box =>
    have hoperators : ∀ operator ∈ ["q", "cm", "Do", "Q"], operator ∉ colorOperators := by decide
    cases hrecord
    refine ⟨_, rfl, .none rfl fun operation hmem x htints => ?_⟩
    exact hoperators operation.operator (List.mem_map_of_mem (f := Operation.operator) hmem) htints.1
  | _ =>
    cases hrecord
    exact ⟨_, rfl, plainOperation?_tint rfl⟩

theorem foldlM_record_tint (hrecord : calls.foldlM record canvas = .ok after) :
    ∃ operations, after.stamp.operations = canvas.stamp.operations ++ operations ∧
      Tint operations calls := by
  induction calls generalizing canvas with
  | nil =>
    cases hrecord
    exact ⟨[], (List.append_nil _).symm, .nil⟩
  | cons call rest ih =>
    rw [List.foldlM_cons] at hrecord
    obtain ⟨next, hnext, hrest⟩ := Outcome.bind_eq_ok.1 hrecord
    obtain ⟨first, hfirst, hcall⟩ := record_tint hnext
    obtain ⟨others, hothers, hcalls⟩ := ih hrest
    refine ⟨first ++ others, ?_, hcall.append hcalls⟩
    rw [hothers, hfirst, List.append_assoc]

end Canvas

end Pdf

open Pdf

theorem Color.Rgb.read_eq_ok {text : String} {color : Rgb} :
    Rgb.read text = .ok color ↔ Rgb.read? text = some color := by
  rw [Rgb.read]
  cases Rgb.read? text <;> simp

/-- The colours that are recorded for a page are in range if those that it is given are. -/
theorem hasColorsInRange_iff {press : Press} {scene : Scene} {defaults : Defaults}
    {commands : List Command} {canvas : Canvas}
    (hrecord : recordAll press (scene.page defaults commands) = .ok canvas) :
    canvas.stamp.HasColorsInRange ↔
      ∀ text ∈ colorTexts defaults commands, ¬ Rgb.GivesNan text := by
  obtain ⟨hcanvas, houtcome⟩ := recordAll_eq_ok hrecord
  have hpage := Traced.eq_of_outcome houtcome
  obtain ⟨operations, hoperations, htint⟩ := Canvas.foldlM_record_tint hcanvas
  have hall : canvas.stamp.operations = operations := hoperations
  rw [Stamp.HasColorsInRange, hall]
  constructor
  · intro hrange text htext
    obtain ⟨color, hread, hsets⟩ := exists_color_of_page hpage htext
    rw [← Rgb.inRange_iff (Rgb.read_eq_ok.1 hread)]
    intro x hx
    obtain ⟨operation, hmem, htints⟩ := (htint x).2 ⟨color, hsets, hx⟩
    exact (hrange operation hmem x htints).1
  · intro hnone operation hmem x htints
    obtain ⟨color, hsets, hx⟩ := (htint x).1 ⟨operation, hmem, htints⟩
    obtain ⟨text, htext, hread⟩ := (sets_page_iff hpage).1 hsets
    have hshare := (Rgb.inRange_iff (Rgb.read_eq_ok.1 hread)).2 (hnone text htext) x hx
    exact ⟨hshare, hshare.isFinite⟩

/-- Of the texts that are read as colours, whether it is by themselves, as operands or on a page, those
and only those give a colour out of range that have the word for what is not a number in `rgb(...)`. -/
theorem colors_in_range_iff (text : String) (press : Press) (scene : Scene) (defaults : Defaults)
    (commands : List Command) :
    (∀ color, Rgb.read? text = some color → (color.InRange ↔ ¬ Rgb.GivesNan text)) ∧
    (Kind.color.objection? ⟨text⟩ = none →
      ∃ color, (Operand.mk text).color = .ok color ∧ (color.InRange ↔ ¬ Rgb.GivesNan text)) ∧
    ∀ canvas, recordAll press (scene.page defaults commands) = .ok canvas →
      (canvas.stamp.HasColorsInRange ↔
        ∀ given ∈ colorTexts defaults commands, ¬ Rgb.GivesNan given) := by
  refine ⟨fun color hread => Rgb.inRange_iff hread, fun hfits => ?_,
    fun canvas hrecord => hasColorsInRange_iff hrecord⟩
  obtain ⟨color, hcolor⟩ := Kind.color_succeeds hfits
  exact ⟨color, hcolor, Rgb.inRange_iff (Rgb.read_eq_ok.1 hcolor)⟩

/-- A fill colour that is read and recorded, but is not in range. -/
theorem colors_in_range_fails_with_nan :
    let text := "rgb(nan,0,0)"
    let commands : List Command := [{ verb := .fillColor, operands := [⟨text⟩] }]
    let scene : Scene := {
      frame := ⟨612.0, 792.0⟩
      place := { page := 1, pageCount := 1, pathname := "a.pdf" }
      stock := {} }
    let press : Press := { document := .ofObjects [] [], layer := .over }
    read ["-fc", text] = .ok ⟨commands, []⟩ ∧
      (∃ color, Rgb.read? text = some color ∧ ¬ color.InRange) ∧
      (∃ color, (Operand.mk text).color = .ok color ∧ ¬ color.InRange) ∧
      ∃ canvas, recordAll press (scene.page {} commands) = .ok canvas ∧
        ¬ canvas.stamp.HasColorsInRange := by
  intro text commands scene press
  obtain ⟨htext, hoperand, hpage⟩ := colors_in_range_iff text press scene {} commands
  have hnan : Rgb.GivesNan text := by
    refine ⟨["nan".toList, "0".toList, "0".toList], by decide +kernel, by decide, ?_⟩
    exact ⟨"nan".toList, List.mem_cons_self, .inl (by decide +kernel)⟩
  have hoption : (read ["-fc", text]).toOption = some ⟨commands, []⟩ := by
    decide +kernel
  refine ⟨Outcome.eq_ok_of_toOption hoption, ?_, ?_, ?_⟩
  · have hsome : (Rgb.read? text).isSome = true := by
      decide +kernel
    obtain ⟨color, hcolor⟩ := Option.isSome_iff_exists.1 hsome
    exact ⟨color, hcolor, fun hrange => (htext color hcolor).1 hrange hnan⟩
  · obtain ⟨color, hcolor, hiff⟩ := hoperand (by decide +kernel)
    exact ⟨color, hcolor, fun hrange => hiff.1 hrange hnan⟩
  · have hrecorded : (recordAll press (scene.page {} commands)).toOption.isSome = true := by
      decide +kernel
    obtain ⟨canvas, hcanvas⟩ := Option.isSome_iff_exists.1 hrecorded
    have hrecord := Outcome.eq_ok_of_toOption hcanvas
    refine ⟨canvas, hrecord, fun hrange => ?_⟩
    have hgiven : text ∈ colorTexts {} commands :=
      List.mem_append_right _ List.mem_cons_self
    exact (hpage canvas hrecord).1 hrange text hgiven hnan

end Overprint
