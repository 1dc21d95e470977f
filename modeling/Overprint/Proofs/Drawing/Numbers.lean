import Overprint.Proofs.Drawing.Step
import Overprint.Proofs.Geometry.Arc

/-!
# The numbers of a drawing

A drawing is written with numbers of the shorter format. What commands draw has room in it, as long
as neither their numbers nor the page nor the pictures are near its limit, with one exception: an
arc whose sweep is degenerate draws what is not a number.
-/

namespace Overprint

open Number Binary Script Overprint.Geometry

-- Powers of natural numbers are those of core, whatever else is imported.
attribute [local instance (2000)] instPowNat

def Number.Binary.Writable (x : Double) : Prop :=
  (x.convert : Single).isFinite = true

instance : DecidablePred Writable :=
  fun _ => inferInstanceAs (Decidable (_ = true))

theorem Number.Binary.Within.writable {x : Double} {bits : Nat} (hx : x.Within bits)
    (hbits : bits ≤ 127) : x.Writable :=
  ((hx.mono hbits).convert (by decide)).isFinite

theorem not_writable_of_atLeast {x : Double} (hx : x.AtLeast (2 ^ (Format.double.scale + 128))) :
    ¬ x.Writable :=
  Bool.eq_false_iff.1 (isFinite_convert_of_atLeast hx (by decide))

example : ((Operand.mk "1e39").number? Double).any (fun x => ¬ x.Writable) = true := by
  decide +kernel

theorem writable_convert {x : Single} (hx : x.isFinite = true) : (x.convert : Double).Writable := by
  have hscale : Format.double.scale = Format.single.scale + 925 := rfl
  rw [Writable, convert_convert hscale (by decide) (by decide) hx]
  exact hx

/-- The size of a picture is not zero and has thirty-two bits at most. -/
structure Picture.IsSized (picture : Picture) : Prop where
  width_pos : 0 < picture.width
  width_lt : picture.width < 2 ^ (32 : Nat)
  height_pos : 0 < picture.height
  height_lt : picture.height < 2 ^ (32 : Nat)

-- The powers behind these are too great to be computed on the way.
attribute [local irreducible] Binary.round Format.one

theorem Picture.IsSized.natural {picture : Picture} (hsized : picture.IsSized) :
    IsNatural picture.naturalSize := by
  have hwidth := Outline.representable_whole (Nat.lt_trans hsized.width_lt (by decide))
  have hheight := Outline.representable_whole (Nat.lt_trans hsized.height_lt (by decide))
  exact ⟨⟨ofNat_within hwidth (Nat.le_of_lt hsized.width_lt),
      ofNat_within hheight (Nat.le_of_lt hsized.height_lt)⟩,
    ofNat_atLeast hwidth hsized.width_pos, ofNat_atLeast hheight hsized.height_pos⟩

def Script.Command.IsDegenerate (command : Command) : Prop :=
  command.verb = .arc ∧ ∃ sweep : Double, command.number 5 = .ok sweep ∧ Outline.Degenerate sweep

namespace Drawing

/-- The numbers of a call, in order, except the shares of colours. A picture is shown by a
matrix. -/
def Call.numbers : Call → List Double
  | path segment => segment.numbers
  | lineWidth x | miterLimit x | font _ x | leading x | charSpacing x | wordSpacing x | rise x
  | horizontalScaling x => [x]
  | dash pattern phase => pattern ++ [phase]
  | textMatrix matrix => [matrix.a, matrix.b, matrix.c, matrix.d, matrix.x, matrix.y]
  | picture _ box => [box.width, 0.0, 0.0, box.height, box.x, box.y]
  | _ => []

/-- The shorter format has room for every number of the call. -/
def Call.Writable (call : Call) : Prop :=
  ∀ x ∈ call.numbers, x.Writable

structure Defaults.IsFinite (defaults : Defaults) : Prop where
  fontSize : defaults.fontSize.isFinite = true
  leading : defaults.leading.isFinite = true
  charSpacing : defaults.charSpacing.isFinite = true
  wordSpacing : defaults.wordSpacing.isFinite = true
  rise : defaults.rise.isFinite = true
  horizontalScaling : defaults.horizontalScaling.isFinite = true
  lineWidth : defaults.lineWidth.isFinite = true

structure Style.Writable (style : Style) : Prop where
  fontSize : style.fontSize.Writable
  leading : style.leading.Writable
  charSpacing : style.charSpacing.Writable
  wordSpacing : style.wordSpacing.Writable
  rise : style.rise.Writable
  horizontalScaling : style.horizontalScaling.Writable
  lineWidth : style.lineWidth.Writable

/-- Numbers and pictures that are not near the limit of the shorter format. -/
structure Scene.IsModest (scene : Scene) : Prop where
  frame : scene.frame.Within 90
  pictures : ∀ path picture, scene.stock.picture path = .ok picture → picture.IsSized

section Style

variable {style next : Style} {stock : Stock} {command : Command}

theorem writable_ofDefaults {defaults : Defaults} {font : Font} (hdefaults : defaults.IsFinite)
    (hstyle : Style.ofDefaults defaults font = .ok style) : style.Writable := by
  obtain ⟨fill, -, hstyle⟩ := Outcome.bind_eq_ok.1 hstyle
  obtain ⟨stroke, -, hstyle⟩ := Outcome.bind_eq_ok.1 hstyle
  cases hstyle
  exact ⟨writable_convert hdefaults.fontSize, writable_convert hdefaults.leading,
    writable_convert hdefaults.charSpacing, writable_convert hdefaults.wordSpacing,
    writable_convert hdefaults.rise, writable_convert hdefaults.horizontalScaling,
    writable_convert hdefaults.lineWidth⟩

theorem writable_change (hstyle : style.Writable) (hcommand : command.Within 90)
    (hchange : style.change stock command = .ok next) : next.Writable := by
  have hset {update : Double → Style}
      (hnext : (do return update (← command.number 0)) = (.ok next : Outcome Style)) :
      ∃ value : Double, value.Writable ∧ next = update value := by
    obtain ⟨value, hvalue, hnext⟩ := Outcome.bind_eq_ok.1 hnext
    cases hnext
    exact ⟨value, (hcommand.number hvalue).writable (by decide), rfl⟩
  obtain ⟨verb, operands, settings⟩ := command
  cases verb with
  | fontFile =>
    obtain ⟨operand, -, hchange⟩ := Outcome.bind_eq_ok.1 hchange
    obtain ⟨font, -, hchange⟩ := Outcome.bind_eq_ok.1 hchange
    cases hchange
    exact { hstyle with }
  | textRenderingMode | fillColor | strokeColor =>
    obtain ⟨value, -, hchange⟩ := Outcome.bind_eq_ok.1 hchange
    cases hchange
    exact { hstyle with }
  | color =>
    obtain ⟨fill, -, hchange⟩ := Outcome.bind_eq_ok.1 hchange
    obtain ⟨stroke, -, hchange⟩ := Outcome.bind_eq_ok.1 hchange
    cases hchange
    exact { hstyle with }
  | fontSize =>
    obtain ⟨value, hvalue, rfl⟩ := hset hchange
    exact { hstyle with fontSize := hvalue }
  | leading =>
    obtain ⟨value, hvalue, rfl⟩ := hset hchange
    exact { hstyle with leading := hvalue }
  | charSpacing =>
    obtain ⟨value, hvalue, rfl⟩ := hset hchange
    exact { hstyle with charSpacing := hvalue }
  | wordSpacing =>
    obtain ⟨value, hvalue, rfl⟩ := hset hchange
    exact { hstyle with wordSpacing := hvalue }
  | textRise =>
    obtain ⟨value, hvalue, rfl⟩ := hset hchange
    exact { hstyle with rise := hvalue }
  | horizontalScaling =>
    obtain ⟨value, hvalue, rfl⟩ := hset hchange
    exact { hstyle with horizontalScaling := hvalue }
  | lineWidth =>
    obtain ⟨value, hvalue, rfl⟩ := hset hchange
    exact { hstyle with lineWidth := hvalue }
  | _ =>
    cases hchange
    exact hstyle

theorem writable_of_sets {key : String} {before value : Double} (hcommand : command.Within 90)
    (hbefore : before.Writable) (hvalue : command.Sets key Operand.number before value) :
    value.Writable := by
  rw [Command.Sets] at hvalue
  split at hvalue
  next operand hoperand =>
    exact ((hcommand.settings key operand hoperand).number hvalue).writable (by decide)
  next => exact hvalue ▸ hbefore

theorem writable_overlay (hstyle : style.Writable) (hcommand : command.Within 90)
    (hoverlay : style.overlay stock command = .ok next) : next.Writable := by
  have hlaid := Drawing.Style.laidOver_of_overlay hoverlay
  exact ⟨writable_of_sets hcommand hstyle.fontSize hlaid.fontSize,
    writable_of_sets hcommand hstyle.leading hlaid.leading,
    writable_of_sets hcommand hstyle.charSpacing hlaid.charSpacing,
    writable_of_sets hcommand hstyle.wordSpacing hlaid.wordSpacing,
    writable_of_sets hcommand hstyle.rise hlaid.rise,
    writable_of_sets hcommand hstyle.horizontalScaling hlaid.horizontalScaling,
    writable_of_sets hcommand hstyle.lineWidth hlaid.lineWidth⟩

end Style

section Calls

variable {scene : Scene} {pen after : Pen} {command : Command} {trace : List Call} {style : Style}

theorem Call.Writable.of_numbers {call : Call} (hcall : call.numbers = []) : call.Writable := by
  intro x hmem
  rw [hcall] at hmem
  cases hmem

theorem Call.Writable.single {call : Call} {x : Double} (hx : x.Writable)
    (hcall : call.numbers = [x]) : call.Writable := by
  intro other hmem
  rw [hcall, List.mem_singleton] at hmem
  exact hmem ▸ hx

theorem Call.Writable.path {segment : Segment Double} {bits : Nat} (hsegment : segment.Within bits)
    (hbits : bits ≤ 127) : (Call.path segment).Writable :=
  fun x hmem => (hsegment x hmem).writable hbits

theorem Call.Writable.matrix {matrix : Matrix} {bits : Nat} (ha : matrix.a.Within bits)
    (hb : matrix.b.Within bits) (hc : matrix.c.Within bits) (hd : matrix.d.Within bits)
    (hx : matrix.x.Within bits) (hy : matrix.y.Within bits) (hbits : bits ≤ 127) :
    (Call.textMatrix matrix).Writable :=
  fun x hmem => (Segment.Within.curveTo ha hb hc hd hx hy x hmem).writable hbits

theorem Scene.IsModest.point (hmodest : scene.IsModest) (hcommand : command.Within 90) {index : Nat}
    {point : Double × Double} (hpoint : scene.point command index = .ok point) :
    point.1.Within 91 ∧ point.2.Within 91 :=
  hmodest.frame.pointAt hcommand hpoint

theorem curve_within (hmodest : scene.IsModest) (hcommand : command.Within 90)
    {segment : Segment Double} (hsegment : scene.curve command = .ok segment) :
    segment.Within 91 := by
  rw [Scene.curve] at hsegment
  split at hsegment
  · obtain ⟨second, hsecond, hsegment⟩ := Outcome.bind_eq_ok.1 hsegment
    obtain ⟨third, hthird, hsegment⟩ := Outcome.bind_eq_ok.1 hsegment
    cases hsegment
    obtain ⟨hx₂, hy₂⟩ := hmodest.point hcommand hsecond
    obtain ⟨hx₃, hy₃⟩ := hmodest.point hcommand hthird
    exact .curveFromStart hx₂ hy₂ hx₃ hy₃
  · obtain ⟨first, hfirst, hsegment⟩ := Outcome.bind_eq_ok.1 hsegment
    obtain ⟨second, hsecond, hsegment⟩ := Outcome.bind_eq_ok.1 hsegment
    obtain ⟨third, hthird, hsegment⟩ := Outcome.bind_eq_ok.1 hsegment
    cases hsegment
    obtain ⟨hx₁, hy₁⟩ := hmodest.point hcommand hfirst
    obtain ⟨hx₂, hy₂⟩ := hmodest.point hcommand hsecond
    obtain ⟨hx₃, hy₃⟩ := hmodest.point hcommand hthird
    exact .curveTo hx₁ hy₁ hx₂ hy₂ hx₃ hy₃
  · cases hsegment

theorem dashes_writable (hcommand : command.Within 90) {pattern : List Double} {phase : Double}
    (hdashes : dashes command = .ok (pattern, phase)) : (Call.dash pattern phase).Writable := by
  obtain ⟨values, hvalues, hdashes⟩ := Outcome.bind_eq_ok.1 hdashes
  have hwithin : ∀ value ∈ values, value.Writable := by
    intro value hmem
    obtain ⟨operand, hoperand, hvalue⟩ := Outcome.exists_of_mem_mapM hvalues hmem
    exact ((hcommand.operands operand hoperand).number hvalue).writable (by decide)
  split at hdashes
  next last hlast =>
    cases hdashes
    intro x hmem
    rcases List.mem_append.1 hmem with hmem | hmem
    · exact hwithin x ((List.dropLast_prefix values).subset hmem)
    · cases List.mem_singleton.1 hmem
      exact hwithin _ (List.mem_of_getLast? hlast)
  next => cases hdashes

namespace Pen

variable (pen : Pen)

theorem draws_call {call : Call} (hcall : call.Writable) :
    pen.Draws Call.Writable (pen.draw [call]) := by
  refine .draw fun other hmem => ?_
  cases List.mem_singleton.1 hmem
  exact hcall

theorem draws_bare {call : Call} (hcall : call.numbers = []) :
    pen.Draws Call.Writable (pen.draw [call]) :=
  pen.draws_call (.of_numbers hcall)

theorem draws_path {segments : List (Segment Double)}
    (hall : ∀ segment ∈ segments, segment.Within 126) :
    pen.Draws Call.Writable (pen.drawPath segments) := by
  refine .draw fun call hmem => ?_
  obtain ⟨segment, hsegment, rfl⟩ := List.mem_map.1 hmem
  exact .path (hall segment hsegment) (by decide)

theorem draws_step {segment : Segment Double} {bits : Nat} (hsegment : segment.Within bits)
    (hbits : bits ≤ 126) : pen.Draws Call.Writable (pen.drawPath [segment]) := by
  refine pen.draws_path fun other hmem => ?_
  cases List.mem_singleton.1 hmem
  exact hsegment.mono hbits

end Pen

/-- What a mark draws can be written, unless it is a degenerate arc. -/
theorem writable_mark (hmodest : scene.IsModest) (hcommand : command.Within 90)
    (hregular : ¬ command.IsDegenerate) (hrole : command.verb.role = .mark) :
    pen.Draws Call.Writable (scene.perform pen command) := by
  obtain ⟨verb, operands, settings⟩ := command
  cases verb with
  | pages => exact .same pen
  | fill | eoFill | stroke | fillStroke | eoFillStroke | closePathStroke | closePathFillStroke
  | closePathEoFillStroke | endPath => exact pen.draws_bare rfl
  | closePath => exact pen.draws_step .close (Nat.le_refl _)
  | lineCapStyle | lineJoinStyle => exact .check fun _ _ => pen.draws_bare rfl
  | miterLimit =>
    refine .check fun limit hlimit => pen.draws_call fun x hmem => ?_
    cases List.mem_singleton.1 hmem
    exact (hcommand.number hlimit).writable (by decide)
  | lineDash =>
    refine .check fun ⟨pattern, phase⟩ hdashes => ?_
    exact pen.draws_call (dashes_writable hcommand hdashes)
  | moveTo =>
    refine .check fun ⟨x, y⟩ hpoint => ?_
    obtain ⟨hx, hy⟩ := hmodest.point hcommand hpoint
    exact pen.draws_step (.moveTo hx hy) (by decide)
  | lineTo =>
    refine .check fun ⟨x, y⟩ hpoint => ?_
    obtain ⟨hx, hy⟩ := hmodest.point hcommand hpoint
    exact pen.draws_step (.lineTo hx hy) (by decide)
  | curveTo =>
    refine .check fun segment hsegment => ?_
    exact pen.draws_step (curve_within hmodest hcommand hsegment) (by decide)
  | curveFromTo =>
    refine .check fun ⟨x₁, y₁⟩ hfirst => .check fun ⟨x₃, y₃⟩ hthird => ?_
    obtain ⟨hx₁, hy₁⟩ := hmodest.point hcommand hfirst
    obtain ⟨hx₃, hy₃⟩ := hmodest.point hcommand hthird
    exact pen.draws_step (.curveToEnd hx₁ hy₁ hx₃ hy₃) (by decide)
  | ellipse =>
    refine .check fun ⟨x₁, y₁⟩ hfirst => .check fun ⟨x₂, y₂⟩ hsecond => ?_
    obtain ⟨hx₁, hy₁⟩ := hmodest.point hcommand hfirst
    obtain ⟨hx₂, hy₂⟩ := hmodest.point hcommand hsecond
    exact pen.draws_path (Outline.ellipse_within hx₁ hy₁ hx₂ hy₂)
  | circle =>
    refine .check fun ⟨x, y⟩ hpoint => .check fun radius hradius => ?_
    refine pen.draws_path fun segment hmem => ?_
    obtain ⟨hx, hy⟩ := hmodest.point hcommand hpoint
    have hradius' := (hcommand.number hradius).mono (show 90 ≤ 91 by decide)
    exact (Outline.circle_within hx hy hradius' (by decide) segment hmem).mono (by decide)
  | arc =>
    refine .check fun ⟨x₁, y₁⟩ hfirst => .check fun ⟨x₂, y₂⟩ hsecond => .check fun start hstart =>
      .check fun sweep hsweep => ?_
    obtain ⟨hx₁, hy₁⟩ := hmodest.point hcommand hfirst
    obtain ⟨hx₂, hy₂⟩ := hmodest.point hcommand hsecond
    have hnot : ¬ Outline.Degenerate sweep :=
      fun hdegenerate => hregular ⟨rfl, sweep, hsweep, hdegenerate⟩
    exact pen.draws_path (Outline.arc_within hx₁ hy₁ hx₂ hy₂ (hcommand.number hstart)
      (hcommand.number hsweep).isFinite hnot)
  | rectangle =>
    refine .check fun box hbox => ?_
    exact pen.draws_step (rectangleBox_within hmodest.frame hcommand hbox).rectangle (by decide)
  | roundRectangle =>
    refine .check fun box hbox => .check fun radius hradius => ?_
    refine pen.draws_path fun segment hmem => ?_
    have hwithin := rectangleBox_within hmodest.frame hcommand hbox
    have hradius' := (hcommand.number hradius).mono (show 90 ≤ 92 by decide)
    exact (Outline.roundRectangle_within hwithin.x hwithin.y hwithin.width hwithin.height hradius'
      (by decide) segment hmem).mono (by decide)
  | image =>
    refine .check fun path _ => .check fun picture hpicture => .check fun box hbox =>
      pen.draws_call fun x hmem => ?_
    have hsized := hmodest.pictures path.text picture hpicture
    have hwithin := pictureBox_within hmodest.frame hcommand hsized.natural hbox
    have hzero : (0.0 : Double).Within 123 := Outline.zero_within.mono (by decide)
    exact (Segment.Within.curveTo hwithin.width hzero hzero hwithin.height hwithin.x hwithin.y x
      hmem).writable (by decide)
  | _ => cases hrole

theorem matrixOf_writable (hcommand : command.Within 90) {matrix : Matrix}
    (hmatrix : matrixOf command = .ok matrix) : (Call.textMatrix matrix).Writable := by
  obtain ⟨a, ha, hmatrix⟩ := Outcome.bind_eq_ok.1 hmatrix
  obtain ⟨b, hb, hmatrix⟩ := Outcome.bind_eq_ok.1 hmatrix
  obtain ⟨c, hc, hmatrix⟩ := Outcome.bind_eq_ok.1 hmatrix
  obtain ⟨d, hd, hmatrix⟩ := Outcome.bind_eq_ok.1 hmatrix
  obtain ⟨x, hx, hmatrix⟩ := Outcome.bind_eq_ok.1 hmatrix
  obtain ⟨y, hy, hmatrix⟩ := Outcome.bind_eq_ok.1 hmatrix
  cases hmatrix
  exact .matrix (hcommand.number ha) (hcommand.number hb) (hcommand.number hc)
    (hcommand.number hd) (hcommand.number hx) (hcommand.number hy) (by decide)

theorem Matrix.at_writable {x y : Double} (hx : x.Within 91) (hy : y.Within 91) :
    (Call.textMatrix (.at x y)).Writable := by
  have hone : (1.0 : Double).Within 91 := Outline.one_within.mono (by decide)
  have hzero : (0.0 : Double).Within 91 := Outline.zero_within.mono (by decide)
  exact .matrix hone hzero hzero hone hx hy (by decide)

theorem Pen.writable_opening (pen : Pen) : ∀ call ∈ pen.opening, call.Writable := by
  intro call hmem
  rw [opening] at hmem
  split at hmem
  · cases hmem
  · cases List.mem_singleton.1 hmem
    exact .of_numbers rfl

theorem writable_position (hmodest : scene.IsModest) (hcommand : command.Within 90)
    (hrole : command.verb.role = .position)
    (hperform : scene.perform pen command = ⟨trace, .ok after⟩) :
    ∀ call ∈ trace, call.Writable := by
  have hopened {matrix : Matrix} (hmatrix : (Call.textMatrix matrix).Writable) :
      ∀ call ∈ pen.opening ++ [.textMatrix matrix], call.Writable := by
    intro call hmem
    rcases List.mem_append.1 hmem with hmem | hmem
    · exact pen.writable_opening call hmem
    · cases List.mem_singleton.1 hmem
      exact hmatrix
  obtain ⟨verb, operands, settings⟩ := command
  cases verb with
  | textMatrix =>
    obtain ⟨first, opened, last, hopen, hperform, rfl⟩ := Traced.bind_eq_ok.1 hperform
    rw [Pen.openText_eq] at hopen
    cases hopen
    obtain ⟨matrix, hmatrix, hperform⟩ := Traced.check_bind_eq_ok.1 hperform
    obtain ⟨rfl, -⟩ := Pen.draw_eq_ok.1 hperform
    exact hopened (matrixOf_writable hcommand hmatrix)
  | textPos =>
    obtain ⟨first, opened, last, hopen, hperform, rfl⟩ := Traced.bind_eq_ok.1 hperform
    rw [Pen.openText_eq] at hopen
    cases hopen
    obtain ⟨point, hpoint, hperform⟩ := Traced.check_bind_eq_ok.1 hperform
    obtain ⟨rfl, -⟩ := Pen.draw_eq_ok.1 hperform
    obtain ⟨hx, hy⟩ := hmodest.point hcommand hpoint
    exact hopened (Matrix.at_writable hx hy)
  | _ => cases hrole

namespace Style.Writable

variable (hstyle : style.Writable)

include hstyle

theorem apply : ∀ call ∈ style.apply, call.Writable := by
  simp only [Style.apply, List.forall_mem_cons]
  exact ⟨.of_numbers rfl, .of_numbers rfl, .single hstyle.lineWidth rfl,
    .single hstyle.fontSize rfl, .single hstyle.leading rfl, .single hstyle.charSpacing rfl,
    .single hstyle.wordSpacing rfl, .single hstyle.rise rfl, .of_numbers rfl,
    .single hstyle.horizontalScaling rfl,
    fun _ hmem => absurd hmem List.not_mem_nil⟩

theorem restore (shown : Style) : ∀ call ∈ style.restore shown, call.Writable := by
  intro call hmem
  simp only [Style.restore, List.mem_append, List.mem_ite_nil_left, List.mem_singleton] at hmem
  rcases hmem with (⟨-, rfl⟩ | ⟨-, rfl⟩) | ⟨-, rfl⟩
  · exact .of_numbers rfl
  · exact .of_numbers rfl
  · exact .single hstyle.lineWidth rfl

theorem announced (verb : Verb) : ∀ call ∈ style.announced verb, call.Writable := by
  intro call hmem
  cases verb with
  | lineWidth =>
    cases List.mem_singleton.1 hmem
    exact .single hstyle.lineWidth rfl
  | fillColor | strokeColor =>
    cases List.mem_singleton.1 hmem
    exact .of_numbers rfl
  | color =>
    simp only [Style.announced, List.mem_cons, List.not_mem_nil, or_false] at hmem
    rcases hmem with rfl | rfl <;> exact .of_numbers rfl
  | _ => cases hmem

theorem entered : ∀ call ∈ style.entered, call.Writable := by
  simp only [Style.entered, List.forall_mem_cons]
  exact ⟨.of_numbers rfl, .of_numbers rfl, .of_numbers rfl, .single hstyle.lineWidth rfl,
    fun _ hmem => absurd hmem List.not_mem_nil⟩

end Style.Writable

theorem Pen.writable_closing (pen : Pen) : ∀ call ∈ pen.closing, call.Writable := by
  intro call hmem
  rw [closing] at hmem
  split at hmem
  · simp only [List.mem_cons, List.not_mem_nil, or_false] at hmem
    rcases hmem with rfl | rfl <;> exact .of_numbers rfl
  · cases List.mem_singleton.1 hmem
    exact .of_numbers rfl

theorem placing_writable (hmodest : scene.IsModest) (hcommand : command.Within 90)
    {position? : Option (Double × Double)}
    (hposition : scene.textPosition command = .ok position?) :
    ∀ call ∈ placing position?, call.Writable := by
  rw [Scene.textPosition] at hposition
  split at hposition
  · cases hposition
    exact fun _ hmem => absurd hmem List.not_mem_nil
  · obtain ⟨point, hpoint, hposition⟩ := Outcome.bind_eq_ok.1 hposition
    cases hposition
    obtain ⟨hx, hy⟩ := hmodest.point hcommand hpoint
    intro call hmem
    cases List.mem_singleton.1 hmem
    exact Matrix.at_writable hx hy
  · cases hposition

theorem showing_writable (text : String) : ∀ call ∈ showing text, call.Writable := by
  intro call hmem
  rcases mem_showing hmem with rfl | ⟨line, rfl⟩ <;> exact .of_numbers rfl

theorem style_writable_of_perform (hcommand : command.Within 90) (hpen : pen.style.Writable)
    (hperform : scene.perform pen command = ⟨trace, .ok after⟩) : after.style.Writable := by
  cases step_of_perform hperform with
  | style hrole hchange => exact writable_change hpen hcommand hchange
  | mark | position | text | literal => exact hpen

/-- What is drawn for a command that is carried out can be written, unless it is degenerate. -/
theorem writable_of_perform (hmodest : scene.IsModest) (hcommand : command.Within 90)
    (hregular : ¬ command.IsDegenerate) (hpen : pen.style.Writable)
    (hperform : scene.perform pen command = ⟨trace, .ok after⟩) :
    ∀ call ∈ trace, call.Writable := by
  cases hrole : command.verb.role with
  | style =>
    obtain ⟨style, hchange, rfl, rfl⟩ := perform_style hrole hperform
    exact (writable_change hpen hcommand hchange).announced command.verb
  | mark =>
    have hmark : pen.Draws Call.Writable (scene.perform pen command) :=
      writable_mark hmodest hcommand hregular hrole
    rw [hperform] at hmark
    exact hmark.calls
  | position => exact writable_position hmodest hcommand hrole hperform
  | text =>
    rw [Scene.perform, Verb.role_eq_text.1 hrole] at hperform
    obtain ⟨position?, shown, operand, hposition, hshown, -, rfl, rfl⟩ := showText_eq_ok hperform
    simp only [List.forall_mem_append]
    exact ⟨⟨⟨⟨pen.writable_opening, (writable_overlay hpen hcommand hshown).apply⟩,
      placing_writable hmodest hcommand hposition⟩, showing_writable _⟩, hpen.restore shown⟩
  | literal =>
    cases step_of_perform hperform with
    | literal hverb hcontent =>
      intro call hmem
      cases List.mem_singleton.1 hmem
      exact .of_numbers rfl
    | style hother | mark hother | position hother =>
      rw [hrole] at hother
      cases hother
    | text hverb =>
      rw [hverb] at hrole
      cases hrole

theorem exists_not_writable (hcommand : command.Within 90) (hdegenerate : command.IsDegenerate)
    (hperform : scene.perform pen command = ⟨trace, .ok after⟩) :
    ∃ call ∈ trace, ¬ call.Writable := by
  obtain ⟨hverb, sweep, hsweep, hdegenerate⟩ := hdegenerate
  rw [Scene.perform, hverb] at hperform
  obtain ⟨first, -, hperform⟩ := Traced.check_bind_eq_ok.1 hperform
  obtain ⟨second, -, hperform⟩ := Traced.check_bind_eq_ok.1 hperform
  obtain ⟨start, -, hperform⟩ := Traced.check_bind_eq_ok.1 hperform
  obtain ⟨found, hfound, hperform⟩ := Traced.check_bind_eq_ok.1 hperform
  obtain ⟨rfl, -⟩ := Pen.draw_eq_ok.1 hperform
  rw [hsweep] at hfound
  cases hfound
  obtain ⟨segment, hmem, hnan⟩ := Outline.exists_nan_arc first.1 first.2 second.1 second.2 start
    hdegenerate (hcommand.number hsweep)
  refine ⟨.path segment, List.mem_map_of_mem hmem, fun hwritable => ?_⟩
  have hfinite : (nan : Single).isFinite = true := hwritable nan hnan
  cases hfinite

theorem writable_foldlM_iff (hmodest : scene.IsModest) {commands : List Command}
    (hcommands : ∀ command ∈ commands, command.Within 90) (hpen : pen.style.Writable)
    (hrun : commands.foldlM scene.perform pen = ⟨trace, .ok after⟩) :
    (∀ call ∈ trace, call.Writable) ↔ ∀ command ∈ commands, ¬ command.IsDegenerate := by
  induction commands generalizing pen trace with
  | nil =>
    cases hrun
    exact ⟨fun _ _ hmem => absurd hmem List.not_mem_nil,
      fun _ _ hmem => absurd hmem List.not_mem_nil⟩
  | cons command rest ih =>
    rw [List.foldlM_cons] at hrun
    obtain ⟨first, next, last, hperform, hrest, rfl⟩ := Traced.bind_eq_ok.1 hrun
    have hcommand := hcommands command List.mem_cons_self
    have hnext := style_writable_of_perform hcommand hpen hperform
    have hlater := ih (fun other hmem => hcommands other (List.mem_cons_of_mem command hmem)) hnext
      hrest
    have hhere : (∀ call ∈ first, call.Writable) ↔ ¬ command.IsDegenerate := by
      refine ⟨fun hall hdegenerate => ?_, fun hregular => ?_⟩
      · obtain ⟨call, hmem, hcall⟩ := exists_not_writable hcommand hdegenerate hperform
        exact hcall (hall call hmem)
      · exact writable_of_perform hmodest hcommand hregular hpen hperform
    rw [List.forall_mem_append, List.forall_mem_cons, hhere, hlater]

/-- What is drawn on a page can be written if and only if no arc on it is degenerate. -/
theorem writable_page_iff (hmodest : scene.IsModest) {defaults : Defaults}
    (hdefaults : defaults.IsFinite) {commands : List Command}
    (hcommands : ∀ command ∈ commands, command.Within 90)
    (hpage : (scene.page defaults commands).outcome = .ok ()) :
    (∀ call ∈ (scene.page defaults commands).trace, call.Writable) ↔
      ∀ command ∈ commands, ¬ command.IsDegenerate := by
  obtain ⟨trace, hdraws⟩ : ∃ trace, scene.page defaults commands = ⟨trace, .ok ()⟩ :=
    ⟨_, Traced.eq_of_outcome hpage⟩
  rw [hdraws]
  obtain ⟨style, drawn, pen, hstyle, hdrawn, rfl⟩ := page_eq_ok hdraws
  have hwritable := writable_ofDefaults hdefaults hstyle
  have hclosed := pen.writable_closing
  have hdrawing := writable_foldlM_iff hmodest hcommands
    (show (Pen.mk style false).style.Writable from hwritable) hdrawn
  rw [List.forall_mem_append, List.forall_mem_append, hdrawing]
  exact ⟨fun h => h.2.1, fun h => ⟨hwritable.entered, h, hclosed⟩⟩

end Calls

end Drawing

end Overprint
