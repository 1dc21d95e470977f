import Mathlib.Algebra.Order.Group.Unbundled.Basic
import Mathlib.Algebra.Order.Ring.Rat
import Mathlib.Order.Interval.Set.UnorderedInterval
import Mathlib.Tactic.Positivity
import Mathlib.Tactic.Ring
import Overprint.Proofs.Drawing.Step
import Overprint.Proofs.Number.Exact
import Overprint.Proofs.Script.Admission

/-!
# Boxes by their corners

A minus sign in front of a coordinate measures it from the far edge, and a corner says which corner of
a box lies at the point. Over exact numbers the two belong together: with the corner of the other side
and a minus sign in front of the coordinate along that axis, a command draws the mirror image of its
box.
-/

namespace Overprint

open Overprint.Geometry Number Script

variable {α : Type} [Field α] [LinearOrder α]

section Signs

namespace Script.Operand

structure IsBare (operand : Operand) : Prop where
  starts : ∀ c ∈ operand.text.toList.head?, c ≠ '+' ∧ c ≠ '-' ∧ ¬ Text.isBlank c
  ends : ∀ c ∈ operand.text.toList.getLast?, ¬ Text.isBlank c

def negated (operand : Operand) : Operand :=
  ⟨"-" ++ operand.text⟩

end Script.Operand

theorem Text.trimStart_eq_self {cs : List Char} (hstart : ∀ c ∈ cs.head?, ¬ isBlank c) :
    trimStart cs = cs := by
  cases cs with
  | nil => rfl
  | cons c rest => exact List.dropWhile_cons_of_neg (hstart c rfl)

theorem Text.trim_eq_self {cs : List Char} (hstart : ∀ c ∈ cs.head?, ¬ isBlank c)
    (hend : ∀ c ∈ cs.getLast?, ¬ isBlank c) : trim cs = cs := by
  rw [← List.head?_reverse] at hend
  rw [trim, trimStart_eq_self hstart]
  exact (congrArg List.reverse (trimStart_eq_self hend)).trans (List.reverse_reverse cs)

namespace Number.Numeral

def withSign (negative : Bool) : Numeral → Numeral
  | nan => nan
  | infinite _ => infinite negative
  | decimal _ digits exponent => decimal negative digits exponent

theorem unsigned?_eq (negative : Bool) (cs : List Char) :
    unsigned? negative cs = (unsigned? false cs).map (withSign negative) := by
  rw [unsigned?, unsigned?]
  dsimp only
  split
  · rfl
  split
  · rfl
  · rw [apply_ite (Option.map (withSign negative)), Option.map_map]
    rfl

theorem read?_of_unsigned {cs : List Char} (hstart : ∀ c ∈ cs.head?, c ≠ '+' ∧ c ≠ '-') :
    read? cs = unsigned? false cs := by
  have hminus (rest : List Char) (hcs : cs = '-' :: rest) : False := by
    subst hcs
    exact (hstart '-' rfl).2 rfl
  have hplus (rest : List Char) (hcs : cs = '+' :: rest) : False := by
    subst hcs
    exact (hstart '+' rfl).1 rfl
  rw [read?, splitSign.eq_3 cs hminus hplus]

end Number.Numeral

theorem Script.Operand.number_eq_ok {operand : Operand} {value : α} :
    operand.number = .ok value ↔ operand.number? α = some value := by
  rw [number]
  cases operand.number? α <;> simp

variable [IsStrictOrderedRing α]

/-- The number of a numeral without a sign is not below zero, and with a minus sign it is the
negative. -/
theorem Number.Scalar.ofNumeral?_withSign {numeral : Numeral} {value : α}
    (hvalue : ofNumeral? (numeral.withSign false) = some value) :
    0 ≤ value ∧ ofNumeral? (numeral.withSign true) = some (-value) := by
  cases numeral with
  | nan | infinite => cases hvalue
  | decimal negative digits exponent =>
    have hfound : some ((if false = true then -1 else 1) * (digits : α) * 10 ^ exponent) =
        some value := hvalue
    obtain rfl := Option.some.inj hfound
    refine ⟨?_, ?_⟩
    · rw [if_neg Bool.false_ne_true]
      positivity
    · show some ((if true = true then -1 else 1) * (digits : α) * 10 ^ exponent) = _
      rw [if_pos rfl, if_neg Bool.false_ne_true, one_mul, neg_one_mul, neg_mul]

namespace Script.Operand.IsBare

variable {operand : Operand}

theorem of_ends {first last : Char} (hfirst : operand.text.toList.head? = some first)
    (hlast : operand.text.toList.getLast? = some last)
    (hstarts : first ≠ '+' ∧ first ≠ '-' ∧ ¬ Text.isBlank first) (hends : ¬ Text.isBlank last) :
    operand.IsBare := by
  constructor
  · intro c hc
    rwa [← Option.some.inj (hfirst.symm.trans hc)]
  · intro c hc
    rwa [← Option.some.inj (hlast.symm.trans hc)]

theorem trim (hbare : operand.IsBare) :
    Text.trim operand.text.toList = operand.text.toList :=
  Text.trim_eq_self (fun c hc => (hbare.starts c hc).2.2) hbare.ends

theorem toList_negated (operand : Operand) :
    operand.negated.text.toList = '-' :: operand.text.toList := by
  rw [negated, String.toList_append]
  rfl

theorem trim_negated (hbare : operand.IsBare) :
    Text.trim operand.negated.text.toList = '-' :: operand.text.toList := by
  have hminus : ¬ Text.isBlank '-' := by decide
  rw [toList_negated]
  refine Text.trim_eq_self (fun c hc => ?_) fun c hc => ?_
  · cases hc
    exact hminus
  · rw [List.getLast?_cons, Option.mem_some_iff] at hc
    cases hlast : operand.text.toList.getLast? with
    | none =>
      rw [hlast, Option.getD_none] at hc
      rwa [← hc]
    | some last =>
      rw [hlast, Option.getD_some] at hc
      rw [← hc]
      exact hbare.ends last hlast

theorem not_isNegative (hbare : operand.IsBare) : operand.isNegative = false := by
  refine decide_eq_false fun hminus => ?_
  rw [Text.trimStart_eq_self fun c hc => (hbare.starts c hc).2.2] at hminus
  exact absurd rfl (hbare.starts '-' hminus).2.1

theorem isNegative_negated (operand : Operand) : operand.negated.isNegative = true := by
  refine decide_eq_true ?_
  rw [toList_negated]
  rfl

/-- A number without a sign is not below zero, and with a minus sign in front it is its negative. -/
theorem number (hbare : operand.IsBare) {value : α} (hvalue : operand.number = .ok value) :
    0 ≤ value ∧ operand.negated.number = .ok (-value) := by
  have hsigned (negative : Bool) : Numeral.unsigned? negative operand.text.toList =
      (Numeral.unsigned? false operand.text.toList).map (Numeral.withSign negative) :=
    Numeral.unsigned?_eq negative operand.text.toList
  rw [number_eq_ok, number?, hbare.trim,
    Numeral.read?_of_unsigned fun c hc => ⟨(hbare.starts c hc).1, (hbare.starts c hc).2.1⟩,
    hsigned false] at hvalue
  obtain ⟨numeral, hnumeral, hvalue⟩ := Option.bind_eq_some_iff.1 hvalue
  obtain ⟨numeral, hread, rfl⟩ := Option.map_eq_some_iff.1 hnumeral
  obtain ⟨hnonneg, hnegative⟩ := Scalar.ofNumeral?_withSign hvalue
  refine ⟨hnonneg, number_eq_ok.2 ?_⟩
  rw [number?, hbare.trim_negated]
  show (Numeral.unsigned? true operand.text.toList).bind Scalar.ofNumeral? = _
  rw [hsigned true, hread]
  exact hnegative

/-- A coordinate without a sign is where it says, and with a minus sign it is as far from the far
edge. -/
theorem resolve (hbare : operand.IsBare) {value : α} (hvalue : operand.number = .ok value)
    (extent : α) : Geometry.resolve operand extent = .ok value ∧
      Geometry.resolve operand.negated extent = .ok (extent - value) := by
  obtain ⟨hnonneg, hnegated⟩ := hbare.number hvalue
  rw [Geometry.resolve, Geometry.resolve, hvalue, hnegated, hbare.not_isNegative,
    isNegative_negated]
  refine ⟨rfl, ?_⟩
  show Except.ok (extent - |-value|) = _
  rw [abs_neg, abs_of_nonneg hnonneg]

theorem number_of_resolve (hbare : operand.IsBare) {extent place : α}
    (hresolve : Geometry.resolve operand extent = .ok place) : operand.number = .ok place := by
  obtain ⟨value, hvalue, -⟩ := Outcome.bind_eq_ok.1 hresolve
  rw [(hbare.resolve hvalue extent).1] at hresolve
  rwa [← hresolve]

end Script.Operand.IsBare

end Signs

section Placing

/-- The first of the two operands that give the point of a command that places a box. -/
def Script.Verb.pointIndex? : Verb → Option Nat
  | .rectangle | .roundRectangle => some 0
  | .image => some 1
  | _ => none

theorem Script.Verb.pointIndex?_of_rectangle {verb : Verb}
    (hverb : verb = .rectangle ∨ verb = .roundRectangle) : verb.pointIndex? = some 0 := by
  rcases hverb with rfl | rfl <;> rfl

/-- The word for the corner that lies at the point of a command, blanks around it ignored. -/
def Script.Command.cornerWord (command : Command) : String :=
  match command.settings.get? "c" with
  | none => "ll"
  | some word => String.ofList (Text.trim word.text.toList)

/-- The command with another point, in two operands from a place on, and another corner. -/
def Script.Command.movedTo (command : Command) (index : Nat) (x y corner : Operand) : Command :=
  { command with
    operands := (command.operands.set index x).set (index + 1) y
    settings := command.settings.insert "c" corner }

namespace Geometry

variable {β : Type} [Scalar β]

theorem Corner.ofSetting_eq (command : Command) : ofSetting (command.setting? "c") =
    if command.cornerWord = "ll" then .ok lowerLeft
    else if command.cornerWord = "lr" then .ok lowerRight
    else if command.cornerWord = "ul" then .ok upperLeft
    else if command.cornerWord = "ur" then .ok upperRight
    else .error (.invalidCorner command.cornerWord) := by
  rw [Command.cornerWord, Command.setting?]
  cases command.settings.get? "c" with
  | none => rfl
  | some word => rfl

namespace Box

/-! The sides of a box, whichever way its extents go. -/

def left (box : Box β) : β :=
  if Scalar.less box.width 0.0 then box.x + box.width else box.x

def bottom (box : Box β) : β :=
  if Scalar.less box.height 0.0 then box.y + box.height else box.y

def right (box : Box β) : β :=
  box.left + if Scalar.less box.width 0.0 then -box.width else box.width

def top (box : Box β) : β :=
  box.bottom + if Scalar.less box.height 0.0 then -box.height else box.height

/-- The outline of a box whose sides end at a distance from its corners, with curves in between. -/
def rounded (box : Box β) (radius control : β) : List (Segment β) := [
  .moveTo (box.left + radius) box.bottom,
  .lineTo (box.right - radius) box.bottom,
  .curveTo (box.right - control) box.bottom box.right (box.bottom + control)
    box.right (box.bottom + radius),
  .lineTo box.right (box.top - radius),
  .curveTo box.right (box.top - control) (box.right - control) box.top
    (box.right - radius) box.top,
  .lineTo (box.left + radius) box.top,
  .curveTo (box.left + control) box.top box.left (box.top - control)
    box.left (box.top - radius),
  .lineTo box.left (box.bottom + radius),
  .curveTo box.left (box.bottom + control) (box.left + control) box.bottom
    (box.left + radius) box.bottom]

theorem roundRectangle_eq (box : Box β) (radius : β) :
    Outline.roundRectangle box.x box.y box.width box.height radius =
      box.rounded (Scalar.abs radius) (Scalar.abs radius * 0.4477) := by
  have hacross : Outline.upright box.x box.width =
      (box.left, if Scalar.less box.width 0.0 then -box.width else box.width) := by
    rw [Outline.upright, left]
    split <;> rfl
  have hup : Outline.upright box.y box.height =
      (box.bottom, if Scalar.less box.height 0.0 then -box.height else box.height) := by
    rw [Outline.upright, bottom]
    split <;> rfl
  rw [Outline.roundRectangle, hacross, hup]
  rfl

end Box

/-- A command places a box on a page: that of a rectangle, with round corners or without, or that of a
picture of the given natural size. -/
inductive Places (frame : Frame β) (natural : β × β) (command : Command) (box : Box β) : Prop
  | rectangle (hverb : command.verb = .rectangle ∨ command.verb = .roundRectangle)
      (hbox : rectangleBox frame command = .ok box)
  | picture (hverb : command.verb = .image) (hbox : pictureBox frame natural command = .ok box)

/-- The size of the box that a command places, wherever that is. -/
inductive Sized (natural : β × β) (command : Command) : β → β → Prop
  | rectangle {width height : β}
      (hverb : command.verb = .rectangle ∨ command.verb = .roundRectangle)
      (hwidth : command.number 2 = .ok width) (hheight : command.number 3 = .ok height) :
      Sized natural command width height
  | picture {width? height? : Option β} (hverb : command.verb = .image)
      (hwidth : extent? (command.setting? "w") = .ok width?)
      (hheight : extent? (command.setting? "h") = .ok height?) :
      Sized natural command (scaledSize natural width? height?).1
        (scaledSize natural width? height?).2

variable {frame : Frame β} {natural : β × β} {command : Command} {box : Box β}

theorem Frame.point_eq_ok {x y : Operand} {across up : β} : frame.point x y = .ok (across, up) ↔
    frame.across x = .ok across ∧ frame.up y = .ok up := by
  simp only [Frame.point, Outcome.bind_eq_ok, pure, Except.pure, Except.ok.injEq, Prod.mk.injEq]
  constructor
  · rintro ⟨_, hacross, _, hup, rfl, rfl⟩
    exact ⟨hacross, hup⟩
  · rintro ⟨hacross, hup⟩
    exact ⟨across, hacross, up, hup, rfl, rfl⟩

theorem rectangleBox_eq_ok : rectangleBox frame command = .ok box ↔
    ∃ point width height corner, frame.pointAt command 0 = .ok point ∧
      command.number 2 = .ok width ∧ command.number 3 = .ok height ∧
      Corner.ofSetting (command.setting? "c") = .ok corner ∧ corner.box point width height = box := by
  simp only [rectangleBox, Outcome.bind_eq_ok, pure, Except.pure, Except.ok.injEq]
  constructor
  · rintro ⟨point, hpoint, width, hwidth, height, hheight, corner, hcorner, hbox⟩
    exact ⟨point, width, height, corner, hpoint, hwidth, hheight, hcorner, hbox⟩
  · rintro ⟨point, width, height, corner, hpoint, hwidth, hheight, hcorner, hbox⟩
    exact ⟨point, hpoint, width, hwidth, height, hheight, corner, hcorner, hbox⟩

theorem pictureBox_eq_ok : pictureBox frame natural command = .ok box ↔
    ∃ width? height? point corner, extent? (command.setting? "w") = .ok width? ∧
      extent? (command.setting? "h") = .ok height? ∧ frame.pointAt command 1 = .ok point ∧
      Corner.ofSetting (command.setting? "c") = .ok corner ∧
      corner.box point (scaledSize natural width? height?).1 (scaledSize natural width? height?).2 =
        box := by
  simp only [pictureBox, Outcome.bind_eq_ok, pure, Except.pure, Except.ok.injEq]
  constructor
  · rintro ⟨width?, hwidth, height?, hheight, point, hpoint, corner, hcorner, hbox⟩
    exact ⟨width?, height?, point, corner, hwidth, hheight, hpoint, hcorner, hbox⟩
  · rintro ⟨width?, height?, point, corner, hwidth, hheight, hpoint, hcorner, hbox⟩
    exact ⟨width?, hwidth, height?, hheight, point, hpoint, corner, hcorner, hbox⟩

/-- A box is placed by its point, its size and its corner, each of which is read for itself. -/
theorem places_iff : Places frame natural command box ↔
    ∃ index point width height corner, command.verb.pointIndex? = some index ∧
      frame.pointAt command index = .ok point ∧ Sized natural command width height ∧
      Corner.ofSetting (command.setting? "c") = .ok corner ∧ corner.box point width height = box := by
  constructor
  · intro hplaces
    cases hplaces with
    | rectangle hverb hbox =>
      obtain ⟨point, width, height, corner, hpoint, hwidth, hheight, hcorner, hbox⟩ :=
        rectangleBox_eq_ok.1 hbox
      exact ⟨0, point, width, height, corner, Verb.pointIndex?_of_rectangle hverb, hpoint,
        .rectangle hverb hwidth hheight, hcorner, hbox⟩
    | picture hverb hbox =>
      obtain ⟨width?, height?, point, corner, hwidth, hheight, hpoint, hcorner, hbox⟩ :=
        pictureBox_eq_ok.1 hbox
      refine ⟨1, point, _, _, corner, ?_, hpoint, .picture hverb hwidth hheight, hcorner, hbox⟩
      rw [hverb]
      rfl
  · rintro ⟨index, point, width, height, corner, hindex, hpoint, hsized, hcorner, hbox⟩
    cases hsized with
    | rectangle hverb hwidth hheight =>
      rw [Verb.pointIndex?_of_rectangle hverb] at hindex
      cases hindex
      exact .rectangle hverb (rectangleBox_eq_ok.2
        ⟨point, width, height, corner, hpoint, hwidth, hheight, hcorner, hbox⟩)
    | picture hverb hwidth hheight =>
      rw [hverb] at hindex
      cases hindex
      exact .picture hverb (pictureBox_eq_ok.2
        ⟨_, _, point, corner, hwidth, hheight, hpoint, hcorner, hbox⟩)

section Moved

variable {index other : Nat} {x y x₀ y₀ word : Operand}

theorem operand_movedTo_of_ne (hfirst : other ≠ index) (hsecond : other ≠ index + 1) :
    (command.movedTo index x y word).operand other = command.operand other := by
  rw [Command.operand, Command.operand, Command.movedTo]
  dsimp only
  rw [List.getElem?_set_ne hsecond.symm, List.getElem?_set_ne hfirst.symm]

theorem number_movedTo_of_ne (hfirst : other ≠ index) (hsecond : other ≠ index + 1) :
    (command.movedTo index x y word).number (α := β) other = command.number other := by
  rw [Command.number, Command.number, operand_movedTo_of_ne hfirst hsecond]

theorem pointAt_movedTo (hx : command.operand index = .ok x₀)
    (hy : command.operand (index + 1) = .ok y₀) :
    frame.pointAt (command.movedTo index x y word) index = frame.point x y := by
  obtain ⟨hfirst, -⟩ := List.getElem?_eq_some_iff.1 (Command.operand_eq_ok.1 hx)
  obtain ⟨hsecond, -⟩ := List.getElem?_eq_some_iff.1 (Command.operand_eq_ok.1 hy)
  have hmovedX : (command.movedTo index x y word).operand index = .ok x := by
    refine Command.operand_eq_ok.2 ?_
    rw [Command.movedTo, List.getElem?_set_ne (Nat.succ_ne_self index),
      List.getElem?_set_self hfirst]
  have hmovedY : (command.movedTo index x y word).operand (index + 1) = .ok y := by
    refine Command.operand_eq_ok.2 ?_
    rw [Command.movedTo, List.getElem?_set_self]
    rwa [List.length_set]
  rw [Frame.pointAt, hmovedX, hmovedY]
  rfl

theorem setting?_movedTo_of_ne {key : String} (hkey : key ≠ "c") :
    (command.movedTo index x y word).setting? key = command.setting? key :=
  SortedMap.get?_insert_of_ne hkey

theorem Sized.movedTo {width height : β} (hsized : Sized natural command width height)
    (hindex : command.verb.pointIndex? = some index) :
    Sized natural (command.movedTo index x y word) width height := by
  cases hsized with
  | rectangle hverb hwidth hheight =>
    rw [Verb.pointIndex?_of_rectangle hverb] at hindex
    cases hindex
    refine .rectangle hverb ?_ ?_
    · rwa [number_movedTo_of_ne (by decide) (by decide)]
    · rwa [number_movedTo_of_ne (by decide) (by decide)]
  | picture hverb hwidth hheight =>
    refine .picture hverb ?_ ?_
    · rwa [setting?_movedTo_of_ne (by decide)]
    · rwa [setting?_movedTo_of_ne (by decide)]

/-- A command with another point and another corner places a box of the same size there. -/
theorem Sized.places_movedTo {width height : β} (hsized : Sized natural command width height)
    (hindex : command.verb.pointIndex? = some index) (hx : command.operand index = .ok x₀)
    (hy : command.operand (index + 1) = .ok y₀) {point : β × β} {corner : Corner}
    (hpoint : frame.point x y = .ok point) (hcorner : Corner.read word.text = .ok corner) :
    Places frame natural (command.movedTo index x y word) (corner.box point width height) := by
  refine places_iff.2 ⟨index, point, width, height, corner, hindex, ?_, hsized.movedTo hindex, ?_,
    rfl⟩
  · rw [pointAt_movedTo hx hy, hpoint]
  · have hsetting : (command.movedTo index x y word).setting? "c" = some word :=
      SortedMap.get?_insert_self _ _ _
    rw [hsetting]
    exact hcorner

end Moved

section Drawn

open Drawing

/-- What a command draws of the box that it places. -/
inductive Shows (scene : Scene) (command : Command) (natural : Double × Double) (box : Box Double) :
    List Call → Prop
  | rectangle (hverb : command.verb = .rectangle) :
      Shows scene command natural box [.path (.rectangle box.x box.y box.width box.height)]
  | rounded {radius : Double} (hverb : command.verb = .roundRectangle)
      (hradius : command.number 4 = .ok radius) :
      Shows scene command natural box
        ((box.rounded (Scalar.abs radius) (Scalar.abs radius * 0.4477)).map .path)
  | picture {name : Operand} {picture : Picture} (hverb : command.verb = .image)
      (hname : command.operand 0 = .ok name) (hpicture : scene.stock.picture name.text = .ok picture)
      (hnatural : picture.naturalSize = natural) :
      Shows scene command natural box [.picture picture box]

theorem perform_eq_ok_iff {scene : Scene} {pen after : Pen} {trace : List Call} {index : Nat}
    (hindex : command.verb.pointIndex? = some index) :
    scene.perform pen command = ⟨trace, .ok after⟩ ↔ after = pen ∧ ∃ natural box,
      Places scene.frame natural command box ∧ Shows scene command natural box trace := by
  constructor
  · intro hperform
    obtain ⟨verb, operands, settings⟩ := command
    cases verb with
    | rectangle =>
      obtain ⟨box, hbox, hdraw⟩ := Traced.check_bind_eq_ok.1 hperform
      obtain ⟨rfl, rfl⟩ := Pen.draw_eq_ok.1 hdraw
      exact ⟨rfl, (box.width, box.height), box, .rectangle (.inl rfl) hbox, .rectangle rfl⟩
    | roundRectangle =>
      obtain ⟨box, hbox, hperform⟩ := Traced.check_bind_eq_ok.1 hperform
      obtain ⟨radius, hradius, hdraw⟩ := Traced.check_bind_eq_ok.1 hperform
      obtain ⟨rfl, rfl⟩ := Pen.draw_eq_ok.1 hdraw
      rw [box.roundRectangle_eq]
      exact ⟨rfl, (box.width, box.height), box, .rectangle (.inr rfl) hbox, .rounded rfl hradius⟩
    | image =>
      obtain ⟨name, hname, hperform⟩ := Traced.check_bind_eq_ok.1 hperform
      obtain ⟨picture, hpicture, hperform⟩ := Traced.check_bind_eq_ok.1 hperform
      obtain ⟨box, hbox, hdraw⟩ := Traced.check_bind_eq_ok.1 hperform
      obtain ⟨rfl, rfl⟩ := Pen.draw_eq_ok.1 hdraw
      exact ⟨rfl, picture.naturalSize, box, .picture rfl hbox, .picture rfl hname hpicture rfl⟩
    | _ => cases hindex
  · rintro ⟨rfl, natural, box, hplaces, hshows⟩
    cases hshows with
    | rectangle hverb =>
      cases hplaces with
      | rectangle _ hbox =>
        rw [Scene.perform, hverb]
        exact Traced.check_bind_eq_ok.2 ⟨box, hbox, Pen.draw_eq_ok.2 ⟨rfl, rfl⟩⟩
      | picture himage => cases hverb.symm.trans himage
    | rounded hverb hradius =>
      cases hplaces with
      | rectangle _ hbox =>
        rw [Scene.perform, hverb, ← box.roundRectangle_eq]
        exact Traced.check_bind_eq_ok.2 ⟨box, hbox,
          Traced.check_bind_eq_ok.2 ⟨_, hradius, Pen.draw_eq_ok.2 ⟨rfl, rfl⟩⟩⟩
      | picture himage => cases hverb.symm.trans himage
    | picture hverb hname hpicture hnatural =>
      cases hplaces with
      | rectangle hother => rcases hother with hother | hother <;> cases hverb.symm.trans hother
      | picture _ hbox =>
        rw [← hnatural] at hbox
        rw [Scene.perform, hverb]
        exact Traced.check_bind_eq_ok.2 ⟨_, hname, Traced.check_bind_eq_ok.2 ⟨_, hpicture,
          Traced.check_bind_eq_ok.2 ⟨box, hbox, Pen.draw_eq_ok.2 ⟨rfl, rfl⟩⟩⟩⟩

end Drawn

end Geometry

end Placing

section Mirrors

namespace Geometry

namespace Box

/-- Where the corner of a box is that a word names. -/
def cornerAt? (box : Box α) (word : String) : Option (α × α) :=
  match word with
  | "ll" => some (box.x, box.y)
  | "lr" => some (box.x + box.width, box.y)
  | "ul" => some (box.x, box.y + box.height)
  | "ur" => some (box.x + box.width, box.y + box.height)
  | _ => none

/-- The points of a box, whichever way its sides go. -/
def Covers (box : Box α) (point : α × α) : Prop :=
  point.1 ∈ Set.uIcc box.x (box.x + box.width) ∧ point.2 ∈ Set.uIcc box.y (box.y + box.height)

/-- The box on the other side of the vertical centre line of a page. -/
def mirroredAcross (frame : Frame α) (box : Box α) : Box α :=
  { box with x := frame.width - box.x - box.width }

/-- The box on the other side of the horizontal centre line of a page. -/
def mirroredUp (frame : Frame α) (box : Box α) : Box α :=
  { box with y := frame.height - box.y - box.height }

end Box

/-- A box is placed so that the corner that the word of the command names is at the point. -/
theorem Corner.cornerAt?_box {command : Command} {corner : Corner}
    (hcorner : ofSetting (command.setting? "c") = .ok corner) (point : α × α) (width height : α) :
    (corner.box point width height).cornerAt? command.cornerWord = some point := by
  obtain ⟨x, y⟩ := point
  rw [ofSetting_eq] at hcorner
  split at hcorner
  next hword =>
    cases hcorner
    rw [hword]
    rfl
  split at hcorner
  next hword =>
    cases hcorner
    rw [hword]
    exact congrArg some (Prod.ext (sub_add_cancel x width) rfl)
  split at hcorner
  next hword =>
    cases hcorner
    rw [hword]
    exact congrArg some (Prod.ext rfl (sub_add_cancel y height))
  split at hcorner
  next hword =>
    cases hcorner
    rw [hword]
    exact congrArg some (Prod.ext (sub_add_cancel x width) (sub_add_cancel y height))
  next => cases hcorner

variable [IsStrictOrderedRing α]

theorem mem_uIcc_mirrored (extent start length place : α) :
    extent - place ∈ Set.uIcc (extent - start - length) (extent - start - length + length) ↔
      place ∈ Set.uIcc start (start + length) := by
  have hstart : extent - (extent - start - length) = start + length := by ring
  have hend : extent - (extent - start - length + length) = start := by ring
  rw [← Set.mem_preimage (f := fun place => extent - place), Set.preimage_const_sub_uIcc, hstart,
    hend, Set.uIcc_comm]

theorem Box.covers_mirroredAcross (frame : Frame α) (box : Box α) (point : α × α) :
    (box.mirroredAcross frame).Covers (frame.width - point.1, point.2) ↔ box.Covers point :=
  and_congr (mem_uIcc_mirrored frame.width box.x box.width point.1) Iff.rfl

theorem Box.covers_mirroredUp (frame : Frame α) (box : Box α) (point : α × α) :
    (box.mirroredUp frame).Covers (point.1, frame.height - point.2) ↔ box.Covers point :=
  and_congr Iff.rfl (mem_uIcc_mirrored frame.height box.y box.height point.2)

theorem resolve_minus_zero (extent : α) : resolve ⟨"-0"⟩ extent = .ok extent := by
  have hbare : Operand.IsBare ⟨"0"⟩ := .of_ends rfl rfl (by decide) (by decide)
  have hzero : (⟨"0"⟩ : Operand).number = .ok (0 : α) := by
    refine Operand.number_eq_ok.2 ?_
    show some ((if false = true then -1 else 1) * ((0 : Nat) : α) * 10 ^ (0 : Int)) = some 0
    rw [Nat.cast_zero, mul_zero, zero_mul]
  have hedge := (hbare.resolve hzero extent).2
  rwa [sub_zero] at hedge

/-- Over exact numbers, of every page and every command that places a box on it: what the program
draws is the box that is placed; if the lower left corner of the box is given by coordinates without a
sign, then with the word for another corner, and a minus sign in front of the coordinate along each
axis on which that corner is on the other side, the box is the mirror image; and however corner and
signs are chosen, that corner of the box lies at the point that the coordinates say, which along each
axis is measured from the far edge for a minus sign, that edge itself being minus zero. -/
theorem corner_placement_mirrors (frame : Frame α) (natural : α × α) :
    (∀ command index x y box, command.verb.pointIndex? = some index →
      command.operand index = .ok x → command.operand (index + 1) = .ok y → x.IsBare → y.IsBare →
      command.cornerWord = "ll" → Places frame natural command box →
      x.number = .ok box.x ∧ y.number = .ok box.y ∧
      Places frame natural (command.movedTo index x.negated y ⟨"lr"⟩) (box.mirroredAcross frame) ∧
      Places frame natural (command.movedTo index x y.negated ⟨"ul"⟩) (box.mirroredUp frame) ∧
      Places frame natural (command.movedTo index x.negated y.negated ⟨"ur"⟩)
        ((box.mirroredAcross frame).mirroredUp frame)) ∧
    (∀ (box : Box α) (point : α × α),
      ((box.mirroredAcross frame).Covers (frame.width - point.1, point.2) ↔ box.Covers point) ∧
      ((box.mirroredUp frame).Covers (point.1, frame.height - point.2) ↔ box.Covers point)) ∧
    (∀ command box, Places frame natural command box → ∃ index point,
      command.verb.pointIndex? = some index ∧ frame.pointAt command index = .ok point ∧
      box.cornerAt? command.cornerWord = some point) ∧
    (∀ operand value, operand.IsBare → operand.number = .ok value →
      frame.across operand = .ok value ∧ frame.across operand.negated = .ok (frame.width - value) ∧
      frame.up operand = .ok value ∧ frame.up operand.negated = .ok (frame.height - value)) ∧
    (frame.across ⟨"-0"⟩ = .ok frame.width ∧ frame.up ⟨"-0"⟩ = .ok frame.height) ∧
    ∀ (scene : Drawing.Scene) pen after command trace index,
      command.verb.pointIndex? = some index →
      (scene.perform pen command = ⟨trace, .ok after⟩ ↔ after = pen ∧ ∃ natural box,
        Places scene.frame natural command box ∧ Shows scene command natural box trace) := by
  refine ⟨?_, fun box point => ⟨box.covers_mirroredAcross frame point,
      box.covers_mirroredUp frame point⟩, ?_, fun operand value hbare hvalue => ?_,
    ⟨resolve_minus_zero frame.width, resolve_minus_zero frame.height⟩,
    fun scene pen after command trace index => perform_eq_ok_iff⟩
  · intro command index x y box hindex hx hy hbareX hbareY hword hplaces
    obtain ⟨found, ⟨left, bottom⟩, width, height, corner, hfound, hpoint, hsized, hread, rfl⟩ :=
      places_iff.1 hplaces
    rw [hindex] at hfound
    cases hfound
    rw [Corner.ofSetting_eq, if_pos hword] at hread
    cases hread
    rw [Frame.pointAt, hx, hy] at hpoint
    obtain ⟨hacross, hup⟩ := Frame.point_eq_ok.1 hpoint
    have hleft := hbareX.number_of_resolve hacross
    have hbottom := hbareY.number_of_resolve hup
    have hright : frame.across x.negated = .ok (frame.width - left) :=
      (hbareX.resolve hleft frame.width).2
    have htop : frame.up y.negated = .ok (frame.height - bottom) :=
      (hbareY.resolve hbottom frame.height).2
    refine ⟨hleft, hbottom, ?_, ?_, ?_⟩
    · exact hsized.places_movedTo hindex hx hy (Frame.point_eq_ok.2 ⟨hright, hup⟩)
        (show Corner.read "lr" = .ok .lowerRight from rfl)
    · exact hsized.places_movedTo hindex hx hy (Frame.point_eq_ok.2 ⟨hacross, htop⟩)
        (show Corner.read "ul" = .ok .upperLeft from rfl)
    · exact hsized.places_movedTo hindex hx hy (Frame.point_eq_ok.2 ⟨hright, htop⟩)
        (show Corner.read "ur" = .ok .upperRight from rfl)
  · intro command box hplaces
    obtain ⟨index, point, width, height, corner, hindex, hpoint, -, hcorner, rfl⟩ :=
      places_iff.1 hplaces
    exact ⟨index, point, hindex, hpoint, Corner.cornerAt?_box hcorner point width height⟩
  · obtain ⟨hleft, hright⟩ := hbare.resolve hvalue frame.width
    obtain ⟨hbottom, htop⟩ := hbare.resolve hvalue frame.height
    exact ⟨hleft, hright, hbottom, htop⟩

/-- A picture twice as wide as its pixels, ten points from the left edge and twenty from the lower one,
and its mirror images on the other sides of the centre lines. -/
theorem corner_placement_mirrors_of_picture :
    let frame : Frame ℚ := ⟨200, 300⟩
    let command : Command :=
      { verb := .image
        operands := [⟨"a.ppm"⟩, ⟨"10"⟩, ⟨"20"⟩]
        settings := .ofList [("c", ⟨"ll"⟩), ("w", ⟨"8"⟩)] }
    Operand.IsBare ⟨"10"⟩ ∧ Operand.IsBare ⟨"20"⟩ ∧ command.cornerWord = "ll" ∧
      Places frame (4, 3) command ⟨10, 20, 8, 6⟩ ∧
      Places frame (4, 3) (command.movedTo 1 ⟨"-10"⟩ ⟨"20"⟩ ⟨"lr"⟩) ⟨182, 20, 8, 6⟩ ∧
      Places frame (4, 3) (command.movedTo 1 ⟨"10"⟩ ⟨"-20"⟩ ⟨"ul"⟩) ⟨10, 274, 8, 6⟩ ∧
      Places frame (4, 3) (command.movedTo 1 ⟨"-10"⟩ ⟨"-20"⟩ ⟨"ur"⟩) ⟨182, 274, 8, 6⟩ := by
  intro frame command
  have hbareX : Operand.IsBare ⟨"10"⟩ := .of_ends rfl rfl (by decide) (by decide)
  have hbareY : Operand.IsBare ⟨"20"⟩ := .of_ends rfl rfl (by decide) (by decide)
  have hword : command.cornerWord = "ll" := rfl
  have hplaces : Places frame (4, 3) command ⟨10, 20, 8, 6⟩ := .picture rfl (by decide +kernel)
  obtain ⟨-, -, hacross, hup, hboth⟩ := (corner_placement_mirrors frame (4, 3)).1 command 1 ⟨"10"⟩
    ⟨"20"⟩ _ rfl rfl rfl hbareX hbareY hword hplaces
  have hright : Box.mirroredAcross frame ⟨10, 20, 8, 6⟩ = ⟨182, 20, 8, 6⟩ := by decide +kernel
  have htop : Box.mirroredUp frame ⟨10, 20, 8, 6⟩ = ⟨10, 274, 8, 6⟩ := by decide +kernel
  have hcorner : Box.mirroredUp frame ⟨182, 20, 8, 6⟩ = ⟨182, 274, 8, 6⟩ := by decide +kernel
  rw [hright] at hacross hboth
  rw [htop] at hup
  rw [hcorner] at hboth
  exact ⟨hbareX, hbareY, hword, hplaces, hacross, hup, hboth⟩

end Geometry

end Mirrors

end Overprint
