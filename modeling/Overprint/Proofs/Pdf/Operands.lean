import Overprint.Proofs.Drawing.Numbers
import Overprint.Script.Reading
import Overprint.Stamping

/-!
# Recorded numbers are finite

The numbers of a page's operations are those of its calls, in the shorter format. So all of them are
finite just when the shorter format has room for every number of the drawing: as long as nothing is
near its limit, just when no arc is degenerate.
-/

namespace Overprint

open Drawing Number Script

-- Powers of natural numbers are those of core, whatever else is imported.
attribute [local instance (2000)] instPowNat

namespace Pdf

/-- A number stands in an object, by itself or in an array. -/
inductive Object.Contains : Object → Single → Prop
  | real (x : Single) : Contains (.real x) x
  | array {items : List Object} {item : Object} {x : Single} (hmem : item ∈ items)
      (hitem : Contains item x) : Contains (.array items) x

def colorOperators : List String := ["rg", "RG"]

/-- A number stands in an operand of the operation and is not the share of a colour. -/
def Operation.Measures (operation : Operation) (x : Single) : Prop :=
  operation.operator ∉ colorOperators ∧ ∃ operand ∈ operation.operands, operand.Contains x

/-- The operations have the numbers, in the shorter format, and no others. -/
def Measure (operations : List Operation) (numbers : List Double) : Prop :=
  ∀ x, (∃ operation ∈ operations, operation.Measures x) ↔ ∃ y ∈ numbers, y.convert = x

section Contains

variable {x : Single}

theorem contains_real {number : Double} : (real number).Contains x ↔ number.convert = x := by
  constructor
  · rintro ⟨⟩
    rfl
  · rintro rfl
    exact .real _

theorem exists_contains_reals {numbers : List Double} :
    (∃ operand ∈ numbers.map real, operand.Contains x) ↔ ∃ y ∈ numbers, y.convert = x := by
  constructor
  · rintro ⟨_, hmem, hoperand⟩
    obtain ⟨y, hy, rfl⟩ := List.mem_map.1 hmem
    exact ⟨y, hy, contains_real.1 hoperand⟩
  · rintro ⟨y, hy, hx⟩
    exact ⟨real y, List.mem_map_of_mem hy, contains_real.2 hx⟩

theorem contains_array {items : List Object} :
    (Object.array items).Contains x ↔ ∃ item ∈ items, item.Contains x := by
  constructor
  · rintro (_ | ⟨hmem, hitem⟩)
    exact ⟨_, hmem, hitem⟩
  · rintro ⟨item, hmem, hitem⟩
    exact .array hmem hitem

end Contains

namespace Measure

variable {operations others : List Operation} {numbers more : List Double} {operator : String}

theorem nil : Measure [] [] := by
  intro x
  simp only [List.not_mem_nil, false_and, exists_false]

theorem append (hfirst : Measure operations numbers) (hsecond : Measure others more) :
    Measure (operations ++ others) (numbers ++ more) := by
  intro x
  simp only [List.mem_append, or_and_right, exists_or, hfirst x, hsecond x]

theorem single {operation : Operation} (hoperator : operation.operator ∉ colorOperators)
    (hnumbers : ∀ x, (∃ operand ∈ operation.operands, operand.Contains x) ↔
      ∃ y ∈ numbers, y.convert = x) : Measure [operation] numbers := by
  intro x
  simp only [List.mem_singleton, exists_eq_left, Operation.Measures, hoperator,
    not_false_eq_true, true_and, hnumbers x]

theorem reals (hoperator : operator ∉ colorOperators) (numbers : List Double) :
    Measure [reals operator numbers] numbers :=
  single hoperator fun _ => exists_contains_reals

theorem dash (pattern : List Double) (phase : Double) :
    Measure [{ operator := "d", operands := [.array (pattern.map real), real phase] }]
      (pattern ++ [phase]) := by
  have hoperator : "d" ∉ colorOperators := by decide
  refine single hoperator fun x => ?_
  simp only [List.mem_cons, List.not_mem_nil, or_false, exists_eq_left, List.mem_append,
    or_and_right, exists_or, contains_array, exists_contains_reals, contains_real]

theorem font (name : String) (size : Double) :
    Measure [{ operator := "Tf", operands := [.name name, real size] }] [size] := by
  have hoperator : "Tf" ∉ colorOperators := by decide
  refine single hoperator fun x => ?_
  have hname : ¬ (Object.name name).Contains x := by rintro ⟨⟩
  simp only [List.mem_cons, List.not_mem_nil, or_false, exists_eq_or_imp, exists_eq_left, hname,
    false_or, contains_real]

theorem none {operation : Operation} (hnone : operation.operator ∈ colorOperators ∨
    ∀ operand ∈ operation.operands, ∀ x, ¬ operand.Contains x) : Measure [operation] [] := by
  intro x
  have hnot : ¬ operation.Measures x := by
    rintro ⟨hoperator, operand, hmem, hoperand⟩
    rcases hnone with hcolor | hnone
    · exact hoperator hcolor
    · exact hnone operand hmem x hoperand
  simp only [List.mem_singleton, exists_eq_left, hnot, List.not_mem_nil, false_and, exists_false]

theorem bare (operator : String) : Measure [{ operator }] [] :=
  none (.inr nofun)

theorem operand {item : Object} (hitem : ∀ x, ¬ item.Contains x) (operator : String) :
    Measure [{ operator, operands := [item] }] [] := by
  refine none (.inr fun other hmem => ?_)
  cases List.mem_singleton.1 hmem
  exact hitem

theorem color (hoperator : operator ∈ colorOperators) (color : Color.Rgb) :
    Measure [colorOperation operator color] [] :=
  none (.inl hoperator)

theorem integer (operator : String) (value : Int) :
    Measure [integerOperation operator value] [] :=
  operand (by rintro _ ⟨⟩) operator

theorem segment (segment : Geometry.Segment Double) :
    Measure [segmentOperation segment] segment.numbers := by
  cases segment with
  | close => exact bare "h"
  | _ => exact reals (by decide) _

theorem picture (name : String) (box : Geometry.Box Double) :
    Measure (pictureOperations name box)
      [box.width, 0.0, 0.0, box.height, box.x, box.y] := by
  have hname : Measure [{ operator := "Do", operands := [.name name] }] [] :=
    operand (by rintro _ ⟨⟩) "Do"
  exact (bare "q").append ((reals (by decide) _).append (hname.append (bare "Q")))

end Measure

theorem plainOperation?_measure {call : Call} {operation : Operation}
    (hoperation : plainOperation? call = some operation) : Measure [operation] call.numbers := by
  cases call with
  | path segment => cases hoperation; exact .segment segment
  | fillColor color | strokeColor color => cases hoperation; exact .color (by decide) color
  | lineWidth | miterLimit | leading | charSpacing | wordSpacing | rise | horizontalScaling
  | textMatrix => cases hoperation; exact .reals (by decide) _
  | dash pattern phase => cases hoperation; exact .dash pattern phase
  | lineCap | lineJoin | renderingMode => cases hoperation; exact .integer _ _
  | paint | save | restore | beginText | endText | nextLine | literal =>
    cases hoperation; exact .bare _
  | font | showText | picture => cases hoperation

theorem Press.encodeText_contains (press : Press) (font : Font) (text : String) (x : Single) :
    ¬ (press.encodeText font text).1.Contains x := by
  rw [Press.encodeText]
  dsimp only
  split <;> rintro ⟨⟩

namespace Canvas

variable {canvas after : Canvas} {call : Call} {calls : List Call}

theorem record_measure (hrecord : canvas.record call = .ok after) :
    ∃ operations, after.stamp.operations = canvas.stamp.operations ++ operations ∧
      Measure operations call.numbers := by
  cases call with
  | font face size =>
    cases hrecord
    exact ⟨_, rfl, .font _ size⟩
  | showText text =>
    cases hfont : canvas.font? with
    | none =>
      rw [record, showText, hfont] at hrecord
      cases hrecord
    | some font =>
      rw [record, showText, hfont] at hrecord
      cases hrecord
      exact ⟨_, rfl, .operand (canvas.press.encodeText_contains font text) "Tj"⟩
  | picture shown box =>
    cases hrecord
    exact ⟨_, rfl, .picture _ box⟩
  | _ =>
    cases hrecord
    exact ⟨_, rfl, plainOperation?_measure rfl⟩

theorem foldlM_record_measure (hrecord : calls.foldlM record canvas = .ok after) :
    ∃ operations, after.stamp.operations = canvas.stamp.operations ++ operations ∧
      Measure operations (calls.flatMap Call.numbers) := by
  induction calls generalizing canvas with
  | nil =>
    cases hrecord
    exact ⟨[], (List.append_nil _).symm, .nil⟩
  | cons call rest ih =>
    rw [List.foldlM_cons] at hrecord
    obtain ⟨next, hnext, hrest⟩ := Outcome.bind_eq_ok.1 hrecord
    obtain ⟨first, hfirst, hcall⟩ := record_measure hnext
    obtain ⟨others, hothers, hcalls⟩ := ih hrest
    refine ⟨first ++ others, ?_, ?_⟩
    · rw [hothers, hfirst, List.append_assoc]
    · rw [List.flatMap_cons]
      exact hcall.append hcalls

end Canvas

/-- All numbers of a stamp are finite, except perhaps the shares of colours. -/
def Stamp.IsFinite (stamp : Stamp) : Prop :=
  ∀ operation ∈ stamp.operations, ∀ x, operation.Measures x → x.isFinite = true

end Pdf

open Pdf

variable {press : Press} {canvas : Canvas} {drawing : Sketch Unit}

/-- What is recorded for a drawing is finite if and only if its calls can be written. -/
theorem isFinite_iff_writable (hrecord : recordAll press drawing = .ok canvas) :
    canvas.stamp.IsFinite ↔ ∀ call ∈ drawing.trace, call.Writable := by
  obtain ⟨after, hfold, hrecord⟩ := Outcome.bind_eq_ok.1 hrecord
  obtain ⟨-, -, hrecord⟩ := Outcome.bind_eq_ok.1 hrecord
  cases hrecord
  obtain ⟨operations, hoperations, hmeasure⟩ := Canvas.foldlM_record_measure hfold
  have hall : canvas.stamp.operations = operations := hoperations
  rw [Stamp.IsFinite, hall]
  constructor
  · intro hfinite call hcall y hy
    obtain ⟨operation, hmem, hmeasures⟩ :=
      (hmeasure y.convert).2 ⟨y, List.mem_flatMap.2 ⟨call, hcall, hy⟩, rfl⟩
    exact hfinite operation hmem _ hmeasures
  · intro hwritable operation hmem x hmeasures
    obtain ⟨y, hy, rfl⟩ := (hmeasure x).1 ⟨operation, hmem, hmeasures⟩
    obtain ⟨call, hcall, hnumber⟩ := List.mem_flatMap.1 hy
    exact hwritable call hcall y hnumber

/-- A number that the shorter format has no room for is recorded all the same. -/
theorem not_isFinite_of_great (hrecord : recordAll press drawing = .ok canvas) {call : Call}
    (hcall : call ∈ drawing.trace) {x : Double} (hx : x ∈ call.numbers)
    (hgreat : x.AtLeast (2 ^ (Format.double.scale + 128))) : ¬ canvas.stamp.IsFinite :=
  fun hfinite => not_writable_of_atLeast hgreat
    ((isFinite_iff_writable hrecord).1 hfinite call hcall x hx)

/-- As long as the numbers of the commands, the page and the pictures are modest, all numbers that
are recorded for the page are finite if and only if none of the commands sweeps a degenerate arc. -/
theorem recorded_finite_iff {scene : Scene} {defaults : Defaults} {commands : List Command}
    (hmodest : scene.IsModest) (hdefaults : defaults.IsFinite)
    (hcommands : ∀ command ∈ commands, command.Within 90)
    (hrecord : recordAll press (scene.page defaults commands) = .ok canvas) :
    canvas.stamp.IsFinite ↔ ∀ command ∈ commands, ¬ command.IsDegenerate := by
  have hpage : (scene.page defaults commands).outcome = .ok () := by
    obtain ⟨after, -, hrecord⟩ := Outcome.bind_eq_ok.1 hrecord
    obtain ⟨value, houtcome, -⟩ := Outcome.bind_eq_ok.1 hrecord
    exact houtcome
  rw [isFinite_iff_writable hrecord, writable_page_iff hmodest hdefaults hcommands hpage]

-- The powers behind these are too great to be computed on the way.
attribute [local irreducible] Binary.round Format.one

/-- A sweep that is not zero, but half of which is. -/
theorem recorded_not_finite_of_tiny_sweep :
    let commands : List Command := [{
      verb := .arc
      operands := [⟨"0"⟩, ⟨"0"⟩, ⟨"10"⟩, ⟨"10"⟩, ⟨"0"⟩, ⟨"1e-323"⟩] }]
    let scene : Scene := {
      frame := ⟨612.0, 792.0⟩
      place := { page := 1, pageCount := 1, pathname := "a.pdf" }
      stock := {} }
    let press : Press := { document := .ofObjects [] [], layer := .over }
    read ["-ar", "0:0:10:10:0:1e-323"] = .ok ⟨commands, []⟩ ∧
      ∃ canvas, recordAll press (scene.page {} commands) = .ok canvas ∧
        ¬ canvas.stamp.IsFinite := by
  intro commands scene press
  have hoption : (read ["-ar", "0:0:10:10:0:1e-323"]).toOption = some ⟨commands, []⟩ := by
    decide +kernel
  have hrecorded : (recordAll press (scene.page {} commands)).toOption.isSome = true := by
    decide +kernel
  obtain ⟨canvas, hcanvas⟩ := Option.isSome_iff_exists.1 hrecorded
  have hrecord := Outcome.eq_ok_of_toOption hcanvas
  have hframe : (612.0 : Double).Within 90 ∧ (792.0 : Double).Within 90 := by
    decide +kernel
  have hmodest : scene.IsModest := by
    refine ⟨⟨hframe.1, hframe.2⟩, fun path picture hpicture => ?_⟩
    cases hpicture
  have hdefaults : ({} : Defaults).IsFinite := by
    constructor <;> decide +kernel
  have hoperands : ∀ operand ∈ commands[0].operands, operand.Within 90 := by
    decide +kernel
  have hcommands : ∀ command ∈ commands, command.Within 90 := by
    intro command hmem
    cases List.mem_singleton.1 hmem
    exact ⟨hoperands, nofun⟩
  have hsweep : ((commands[0].number 5).toOption.any fun sweep : Double =>
      decide (Geometry.Outline.Degenerate sweep)) = true := by
    decide +kernel
  have hdegenerate : commands[0].IsDegenerate := by
    obtain ⟨sweep, hnumber, hsmall⟩ := (Option.any_eq_true ..).1 hsweep
    exact ⟨rfl, sweep, Outcome.eq_ok_of_toOption hnumber, of_decide_eq_true hsmall⟩
  have hiff := recorded_finite_iff hmodest hdefaults hcommands hrecord
  refine ⟨Outcome.eq_ok_of_toOption hoption, canvas, hrecord, fun hfinite => ?_⟩
  exact hiff.1 hfinite commands[0] List.mem_cons_self hdegenerate

end Overprint
