import Overprint.Geometry.Outline
import Overprint.Geometry.Placement
import Overprint.Proofs.Number.Magnitude
import Overprint.Proofs.Success

/-!
# How far shapes reach

Coordinates come from operands and from the size of the page, and shapes are made of them by a few
sums, products and quotients. None of these is much greater than what it is made of, so as long as
operands and page are not near the limit of the format, neither is anything that is drawn.
-/

namespace Overprint

open Number Binary

/-- No number that the operand spells is greater than `2 ^ bits`. -/
def Script.Operand.Within (bits : Nat) (operand : Operand) : Prop :=
  ∀ value ∈ operand.number? Double, value.Within bits

instance (bits : Nat) : DecidablePred (Script.Operand.Within bits) :=
  fun operand => decidable_of_iff ((operand.number? Double).all fun value => value.Within bits) (by
    simp only [Script.Operand.Within, Option.all_eq_true, decide_eq_true_eq, Option.mem_def])

/-- No number in the command is greater than `2 ^ bits`. -/
structure Script.Command.Within (bits : Nat) (command : Command) : Prop where
  operands : ∀ operand ∈ command.operands, operand.Within bits
  settings : ∀ key operand, command.setting? key = some operand → operand.Within bits

namespace Script

variable {bits : Nat} {value : Double}

theorem Operand.Within.number {operand : Operand} (hoperand : operand.Within bits)
    (hvalue : operand.number = .ok value) : value.Within bits := by
  rw [Operand.number] at hvalue
  split at hvalue
  next found hfound =>
    cases hvalue
    exact hoperand value hfound
  next => cases hvalue

theorem Command.Within.operand {command : Command} {operand : Operand} {index : Nat}
    (hcommand : command.Within bits) (hoperand : command.operand index = .ok operand) :
    operand.Within bits := by
  rw [Command.operand] at hoperand
  split at hoperand
  next found hfound =>
    cases hoperand
    exact hcommand.operands operand (List.mem_of_getElem? hfound)
  next => cases hoperand

theorem Command.Within.number {command : Command} {index : Nat} (hcommand : command.Within bits)
    (hvalue : command.number index = .ok value) : value.Within bits := by
  obtain ⟨operand, hoperand, hvalue⟩ := Outcome.bind_eq_ok.1 hvalue
  exact (hcommand.operand hoperand).number hvalue

end Script

namespace Geometry

def Segment.numbers {α : Type} : Segment α → List α
  | moveTo x y | lineTo x y => [x, y]
  | curveTo x₁ y₁ x₂ y₂ x₃ y₃ => [x₁, y₁, x₂, y₂, x₃, y₃]
  | curveFromStart x₂ y₂ x₃ y₃ => [x₂, y₂, x₃, y₃]
  | curveToEnd x₁ y₁ x₃ y₃ => [x₁, y₁, x₃, y₃]
  | rectangle x y width height => [x, y, width, height]
  | close => []

/-- No number of the step is greater than `2 ^ bits`. -/
def Segment.Within (bits : Nat) (segment : Segment Double) : Prop :=
  ∀ x ∈ segment.numbers, x.Within bits

namespace Segment.Within

variable {bits : Nat} {x₁ y₁ x₂ y₂ x₃ y₃ : Double}

theorem moveTo (hx : x₁.Within bits) (hy : y₁.Within bits) :
    (Segment.moveTo x₁ y₁).Within bits := by
  intro z hz
  simp only [numbers, List.mem_cons, List.not_mem_nil, or_false] at hz
  rcases hz with rfl | rfl <;> assumption

theorem lineTo (hx : x₁.Within bits) (hy : y₁.Within bits) : (Segment.lineTo x₁ y₁).Within bits :=
  moveTo hx hy

theorem curveTo (hx₁ : x₁.Within bits) (hy₁ : y₁.Within bits) (hx₂ : x₂.Within bits)
    (hy₂ : y₂.Within bits) (hx₃ : x₃.Within bits) (hy₃ : y₃.Within bits) :
    (Segment.curveTo x₁ y₁ x₂ y₂ x₃ y₃).Within bits := by
  intro z hz
  simp only [numbers, List.mem_cons, List.not_mem_nil, or_false] at hz
  rcases hz with rfl | rfl | rfl | rfl | rfl | rfl <;> assumption

theorem curveFromStart (hx₂ : x₂.Within bits) (hy₂ : y₂.Within bits) (hx₃ : x₃.Within bits)
    (hy₃ : y₃.Within bits) : (Segment.curveFromStart x₂ y₂ x₃ y₃).Within bits := by
  intro z hz
  simp only [numbers, List.mem_cons, List.not_mem_nil, or_false] at hz
  rcases hz with rfl | rfl | rfl | rfl <;> assumption

theorem curveToEnd (hx₁ : x₁.Within bits) (hy₁ : y₁.Within bits) (hx₃ : x₃.Within bits)
    (hy₃ : y₃.Within bits) : (Segment.curveToEnd x₁ y₁ x₃ y₃).Within bits :=
  curveFromStart hx₁ hy₁ hx₃ hy₃

theorem close : (Segment.close : Segment Double).Within bits := by
  intro z hz
  cases hz

theorem mono {segment : Segment Double} {wider : Nat} (hsegment : segment.Within bits)
    (hle : bits ≤ wider) : segment.Within wider :=
  fun z hz => (hsegment z hz).mono hle

end Segment.Within

structure Frame.Within (bits : Nat) (frame : Frame Double) : Prop where
  width : frame.width.Within bits
  height : frame.height.Within bits

structure Box.Within (bits : Nat) (box : Box Double) : Prop where
  x : box.x.Within bits
  y : box.y.Within bits
  width : box.width.Within bits
  height : box.height.Within bits

variable {bits : Nat}

theorem room_of_lt (hbits : bits < 1000) :
    Format.double.scale + (bits + 1) < Format.double.width := by
  show 1074 + (bits + 1) < 2098
  omega

section Places

open Script

variable {frame : Frame Double} {command : Command}

theorem resolve_within {coordinate : Operand} {extent place : Double}
    (hcoordinate : coordinate.Within 90) (hextent : extent.Within 90)
    (hplace : resolve coordinate extent = .ok place) : place.Within 91 := by
  obtain ⟨value, hvalue, hplace⟩ := Outcome.bind_eq_ok.1 hplace
  have hwithin := hcoordinate.number hvalue
  cases hplace
  split
  · exact hextent.sub hwithin.abs (by decide)
  · exact hwithin.mono (by decide)

theorem Frame.Within.pointAt (hframe : frame.Within 90) (hcommand : command.Within 90) {index : Nat}
    {point : Double × Double} (hpoint : frame.pointAt command index = .ok point) :
    point.1.Within 91 ∧ point.2.Within 91 := by
  obtain ⟨x, hx, hpoint⟩ := Outcome.bind_eq_ok.1 hpoint
  obtain ⟨y, hy, hpoint⟩ := Outcome.bind_eq_ok.1 hpoint
  obtain ⟨across, hacross, hpoint⟩ := Outcome.bind_eq_ok.1 hpoint
  obtain ⟨up, hup, hpoint⟩ := Outcome.bind_eq_ok.1 hpoint
  cases hpoint
  exact ⟨resolve_within (hcommand.operand hx) hframe.width hacross,
    resolve_within (hcommand.operand hy) hframe.height hup⟩

theorem Corner.box_within (corner : Corner) {x y width height : Double} (hx : x.Within bits)
    (hy : y.Within bits) (hwidth : width.Within bits) (hheight : height.Within bits)
    (hbits : bits < 1000) : (corner.box (x, y) width height).Within (bits + 1) := by
  have hroom := room_of_lt hbits
  have hwide {z : Double} (hz : z.Within bits) : z.Within (bits + 1) := hz.mono (Nat.le_succ bits)
  cases corner with
  | lowerLeft => exact ⟨hwide hx, hwide hy, hwide hwidth, hwide hheight⟩
  | lowerRight => exact ⟨hx.sub hwidth hroom, hwide hy, hwide hwidth, hwide hheight⟩
  | upperLeft => exact ⟨hwide hx, hy.sub hheight hroom, hwide hwidth, hwide hheight⟩
  | upperRight => exact ⟨hx.sub hwidth hroom, hy.sub hheight hroom, hwide hwidth, hwide hheight⟩

theorem rectangleBox_within {box : Box Double} (hframe : frame.Within 90)
    (hcommand : command.Within 90) (hbox : rectangleBox frame command = .ok box) :
    box.Within 92 := by
  obtain ⟨point, hpoint, hbox⟩ := Outcome.bind_eq_ok.1 hbox
  obtain ⟨width, hwidth, hbox⟩ := Outcome.bind_eq_ok.1 hbox
  obtain ⟨height, hheight, hbox⟩ := Outcome.bind_eq_ok.1 hbox
  obtain ⟨corner, -, hbox⟩ := Outcome.bind_eq_ok.1 hbox
  cases hbox
  obtain ⟨hx, hy⟩ := hframe.pointAt hcommand hpoint
  exact corner.box_within hx hy ((hcommand.number hwidth).mono (by decide))
    ((hcommand.number hheight).mono (by decide)) (by decide)

theorem extent?_within {setting? : Option Operand} {value : Double}
    (hsetting : ∀ operand, setting? = some operand → operand.Within 90)
    (hvalue : extent? setting? = .ok (some value)) : value.Within 90 := by
  cases setting? with
  | none => cases hvalue
  | some operand =>
    obtain ⟨found, hfound, hvalue⟩ := Outcome.bind_eq_ok.1 hvalue
    have hwithin := (hsetting operand rfl).number hfound
    split at hvalue
    · cases hvalue
      exact hwithin
    · cases hvalue

/-- A natural size that a quotient can be made by. -/
structure IsNatural (natural : Double × Double) : Prop where
  within : natural.1.Within 32 ∧ natural.2.Within 32
  atLeast : natural.1.AtLeast Format.double.one ∧ natural.2.AtLeast Format.double.one

theorem scaledSize_within {natural : Double × Double} (hnatural : IsNatural natural)
    {width? height? : Option Double} (hwidth : ∀ width, width? = some width → width.Within 90)
    (hheight : ∀ height, height? = some height → height.Within 90) :
    (scaledSize natural width? height?).1.Within 122 ∧
      (scaledSize natural width? height?).2.Within 122 := by
  obtain ⟨⟨hacross, hup⟩, hacross', hup'⟩ := hnatural
  cases width? with
  | none =>
    cases height? with
    | none => exact ⟨hacross.mono (by decide), hup.mono (by decide)⟩
    | some height =>
      have hasked := hheight height rfl
      have hproduct := hacross.mul hasked (by decide)
      exact ⟨(hproduct.div hup' (by decide)).mono (by decide),
        hasked.mono (by decide)⟩
  | some width =>
    have hasked := hwidth width rfl
    cases height? with
    | none =>
      have hproduct := hup.mul hasked (by decide)
      exact ⟨hasked.mono (by decide),
        (hproduct.div hacross' (by decide)).mono (by decide)⟩
    | some height => exact ⟨hasked.mono (by decide), (hheight height rfl).mono (by decide)⟩

theorem pictureBox_within {natural : Double × Double} {box : Box Double} (hframe : frame.Within 90)
    (hcommand : command.Within 90) (hnatural : IsNatural natural)
    (hbox : pictureBox frame natural command = .ok box) : box.Within 123 := by
  obtain ⟨width?, hwidth, hbox⟩ := Outcome.bind_eq_ok.1 hbox
  obtain ⟨height?, hheight, hbox⟩ := Outcome.bind_eq_ok.1 hbox
  obtain ⟨point, hpoint, hbox⟩ := Outcome.bind_eq_ok.1 hbox
  obtain ⟨corner, -, hbox⟩ := Outcome.bind_eq_ok.1 hbox
  cases hbox
  obtain ⟨hx, hy⟩ := hframe.pointAt hcommand hpoint
  have hacross : ∀ width, width? = some width → width.Within 90 :=
    fun width hsome => extent?_within (hcommand.settings "w") (hsome ▸ hwidth)
  have hup : ∀ height, height? = some height → height.Within 90 :=
    fun height hsome => extent?_within (hcommand.settings "h") (hsome ▸ hheight)
  have hsize := scaledSize_within hnatural hacross hup
  exact corner.box_within (hx.mono (by decide)) (hy.mono (by decide)) hsize.1 hsize.2 (by decide)

theorem Box.Within.rectangle {box : Box Double} (hbox : box.Within bits) :
    (Segment.rectangle box.x box.y box.width box.height).Within bits :=
  Segment.Within.curveFromStart hbox.x hbox.y hbox.width hbox.height

end Places

namespace Outline

theorem circleShare_within : (0.5523 : Double).Within 0 := by
  decide +kernel

theorem cornerShare_within : (0.4477 : Double).Within 0 := by
  decide +kernel

-- The powers behind these shares are too great to be computed on the way.
attribute [local irreducible] Binary.round

variable {x y width height radius : Double}

theorem circle_within (hx : x.Within bits) (hy : y.Within bits) (hradius : radius.Within bits)
    (hbits : bits < 1000) : ∀ segment ∈ circle x y radius, segment.Within (bits + 1) := by
  have hroom := room_of_lt hbits
  have hk := hradius.mul circleShare_within (by omega)
  have hright := hx.add hradius hroom
  have hleft := hx.sub hradius hroom
  have htop := hy.add hradius hroom
  have hbottom := hy.sub hradius hroom
  have hxk := hx.add hk hroom
  have hxk' := hx.sub hk hroom
  have hyk := hy.add hk hroom
  have hyk' := hy.sub hk hroom
  have hx' := hx.mono (Nat.le_succ bits)
  have hy' := hy.mono (Nat.le_succ bits)
  intro segment hmem
  simp only [circle, List.mem_cons, List.not_mem_nil, or_false] at hmem
  rcases hmem with rfl | rfl | rfl | rfl | rfl
  · exact .moveTo hright hy'
  · exact .curveTo hright hyk hxk htop hx' htop
  · exact .curveTo hxk' htop hleft hyk hleft hy'
  · exact .curveTo hleft hyk' hxk' hbottom hx' hbottom
  · exact .curveTo hxk hbottom hright hyk' hright hy'

theorem upright_within {start extent : Double} (hstart : start.Within bits)
    (hextent : extent.Within bits) (hbits : bits < 1000) :
    (upright start extent).1.Within (bits + 1) ∧ (upright start extent).2.Within (bits + 1) := by
  rw [upright]
  split
  · exact ⟨hstart.add hextent (room_of_lt hbits), hextent.neg.mono (Nat.le_succ bits)⟩
  · exact ⟨hstart.mono (Nat.le_succ bits), hextent.mono (Nat.le_succ bits)⟩

theorem roundRectangle_within (hx : x.Within bits) (hy : y.Within bits) (hwidth : width.Within bits)
    (hheight : height.Within bits) (hradius : radius.Within bits) (hbits : bits < 900) :
    ∀ segment ∈ roundRectangle x y width height radius, segment.Within (bits + 3) := by
  obtain ⟨hleft, hwide⟩ := upright_within hx hwidth (by omega)
  obtain ⟨hbottom, hhigh⟩ := upright_within hy hheight (by omega)
  rw [roundRectangle]
  generalize upright x width = across at *
  generalize upright y height = up at *
  obtain ⟨left, width⟩ := across
  obtain ⟨bottom, height⟩ := up
  have hroom : Format.double.scale + (bits + 2 + 1) < Format.double.width := room_of_lt (by omega)
  have hright := hleft.add hwide (room_of_lt (by omega))
  have htop := hbottom.add hhigh (room_of_lt (by omega))
  have hr : radius.abs.Within (bits + 2) := hradius.abs.mono (by omega)
  have hc := hr.mul cornerShare_within (by omega)
  have hadd {z t : Double} (hz : z.Within (bits + 2)) (ht : t.Within (bits + 2)) :
      (z + t).Within (bits + 3) := hz.add ht hroom
  have hsub {z t : Double} (hz : z.Within (bits + 2)) (ht : t.Within (bits + 2)) :
      (z - t).Within (bits + 3) := hz.sub ht hroom
  have hwider {z : Double} (hz : z.Within (bits + 2)) : z.Within (bits + 3) :=
    hz.mono (Nat.le_succ _)
  have hleft' : left.Within (bits + 2) := hleft.mono (by omega)
  have hbottom' : bottom.Within (bits + 2) := hbottom.mono (by omega)
  intro segment hmem
  simp only [List.mem_cons, List.not_mem_nil, or_false] at hmem
  rcases hmem with rfl | rfl | rfl | rfl | rfl | rfl | rfl | rfl | rfl
  · exact .moveTo (hadd hleft' hr) (hwider hbottom')
  · exact .lineTo (hsub hright hr) (hwider hbottom')
  · exact .curveTo (hsub hright hc) (hwider hbottom') (hwider hright) (hadd hbottom' hc)
      (hwider hright) (hadd hbottom' hr)
  · exact .lineTo (hwider hright) (hsub htop hr)
  · exact .curveTo (hwider hright) (hsub htop hc) (hsub hright hc) (hwider htop)
      (hsub hright hr) (hwider htop)
  · exact .lineTo (hadd hleft' hr) (hwider htop)
  · exact .curveTo (hadd hleft' hc) (hwider htop) (hwider hleft') (hsub htop hc)
      (hwider hleft') (hsub htop hr)
  · exact .lineTo (hwider hleft') (hadd hbottom' hr)
  · exact .curveTo (hwider hleft') (hadd hbottom' hc) (hadd hleft' hc) (hwider hbottom')
      (hadd hleft' hr) (hwider hbottom')

end Outline

end Geometry

end Overprint
