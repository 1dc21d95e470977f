import Overprint.Proofs.Drawing.Step
import Overprint.Proofs.Provision

/-!
# The commands that fail

What is read from a command line can still fail while it is drawn, but only in four ways: a curve by
five coordinates, a text with half a position, an empty literal, and a word that names no corner.
Whatever else a command asks for, reading and loading have seen to. `fault?` is the failure of a
command, and the first one of a page is the failure of the page.
-/

namespace Overprint

open Drawing Overprint.Geometry Number Script

namespace Script.Command

def cornerFault? (command : Command) : Option Failure := do
  let corner ← command.setting? "c"
  let word := String.ofList (Text.trim corner.text.toList)
  if word ∈ ["ll", "lr", "ul", "ur"] then none else some (.invalidCorner word)

/-- The failure that drawing a command meets, whatever is drawn before it. -/
def fault? (command : Command) : Option Failure :=
  match command.verb with
  | .curveTo => if command.operands.length = 5 then some (.curveOperands 5) else none
  | .text => if command.operands.length = 2 then some (.textOperands 2) else none
  | .literal => if command.operands[0]? = some ⟨""⟩ then some .emptyLiteral else none
  | .rectangle | .roundRectangle | .image => command.cornerFault?
  | _ => none

end Script.Command

variable {ω α β : Type}

/-- The work ends in a failure, or gives a value if there is none. -/
def Traced.EndsIn (fault? : Option Failure) (work : Traced ω α) : Prop :=
  work.outcome.EndsIn fault?

namespace Traced.EndsIn

variable {fault? : Option Failure}

theorem bind {work : Traced ω α} {next : α → Traced ω β} (hfirst : work.Succeeds)
    (hnext : ∀ value, work.outcome = .ok value → EndsIn fault? (next value)) :
    EndsIn fault? (work >>= next) := by
  rw [EndsIn, outcome_bind]
  exact Outcome.EndsIn.bind hfirst hnext

theorem bind_succeeds {work : Traced ω α} {next : α → Traced ω β} (hfirst : EndsIn fault? work)
    (hnext : ∀ value, work.outcome = .ok value → Succeeds (next value)) :
    EndsIn fault? (work >>= next) := by
  rw [EndsIn, outcome_bind]
  exact Outcome.EndsIn.bind_succeeds hfirst hnext

theorem bind_fails {work : Traced ω α} {failure : Failure} (next : α → Traced ω β)
    (hfirst : EndsIn (some failure) work) : EndsIn (some failure) (work >>= next) := by
  have herror : work.outcome = .error failure := hfirst
  rw [EndsIn, outcome_bind, herror]
  rfl

theorem check {outcome : Outcome α} {next : α → Traced ω β} (hfirst : outcome.Succeeds)
    (hnext : ∀ value, outcome = .ok value → EndsIn fault? (next value)) :
    EndsIn fault? ((liftM outcome : Traced ω α) >>= next) :=
  bind hfirst hnext

theorem check_succeeds {outcome : Outcome α} {next : α → Traced ω β}
    (hfirst : outcome.EndsIn fault?) (hnext : ∀ value, outcome = .ok value → Succeeds (next value)) :
    EndsIn fault? ((liftM outcome : Traced ω α) >>= next) :=
  bind_succeeds hfirst hnext

end Traced.EndsIn

section Access

variable {command : Command} {verb : Verb} {stock : Stock}

theorem Geometry.resolve_succeeds {kind : Kind} {coordinate : Operand} (extent : Double)
    (hkind : kind.isNumeric = true) (hfits : kind.objection? coordinate = none) :
    (resolve coordinate extent).Succeeds :=
  (Kind.number_succeeds hkind hfits).bind fun _ _ => .pure _

theorem Geometry.pointAt_succeeds (hadmitted : command.Admitted) (hverb : command.verb = verb)
    (frame : Frame Double) {index : Nat} (hlt : index + 1 < command.operands.length)
    (hx : (verb.form.kindAt index).isNumeric = true)
    (hy : (verb.form.kindAt (index + 1)).isNumeric = true) :
    (frame.pointAt command index).Succeeds := by
  refine (Command.operand_succeeds (by omega)).bind fun x hoperandx => ?_
  refine (Command.operand_succeeds hlt).bind fun y hoperandy => ?_
  have hacross : (frame.across x).Succeeds :=
    resolve_succeeds frame.width hx (hadmitted.objection?_eq_none hverb hoperandx)
  have hup : (frame.up y).Succeeds :=
    resolve_succeeds frame.height hy (hadmitted.objection?_eq_none hverb hoperandy)
  exact hacross.bind fun _ _ => hup.bind fun _ _ => .pure _

theorem Script.Command.Admitted.point (hadmitted : command.Admitted) (hverb : command.verb = verb)
    (frame : Frame Double) (index : Nat) (hlt : index + 1 < verb.form.least)
    (hx : (verb.form.kindAt index).isNumeric = true)
    (hy : (verb.form.kindAt (index + 1)).isNumeric = true) :
    (frame.pointAt command index).Succeeds := by
  refine pointAt_succeeds hadmitted hverb frame ?_ hx hy
  have hleast := hadmitted.least_le
  rw [hverb] at hleast
  omega

theorem Script.Command.Admitted.colorAt (hadmitted : command.Admitted)
    (hverb : command.verb = verb) {index : Nat} (hlt : index < command.operands.length)
    (hkind : verb.form.kindAt index = .color) : (colorAt command index).Succeeds := by
  refine (Command.operand_succeeds hlt).bind fun operand hoperand => ?_
  have hfits := hadmitted.objection?_eq_none hverb hoperand
  rw [hkind] at hfits
  exact Kind.color_succeeds hfits

theorem Script.Command.Admitted.choice (hadmitted : command.Admitted)
    (hverb : command.verb = verb) (hleast : 0 < verb.form.least) {low high : Int}
    (hkind : verb.form.kindAt 0 = .integer low high) : (choice command).Succeeds := by
  refine (hadmitted.operand hverb 0 hleast).bind fun operand hoperand => ?_
  have hfits := hadmitted.objection?_eq_none hverb hoperand
  rw [hkind] at hfits
  exact Kind.integer_succeeds hfits

/-- A word for a corner is read, and any other one fails as the command is expected to. -/
theorem Geometry.Corner.ofSetting_endsIn (command : Command) :
    (Corner.ofSetting (command.setting? "c")).EndsIn command.cornerFault? := by
  rw [Command.cornerFault?]
  cases command.setting? "c" with
  | none => exact .pure Corner.lowerLeft
  | some corner =>
    simp only [Corner.ofSetting, Corner.read, Option.bind_eq_bind, Option.bind_some]
    generalize String.ofList (Text.trim corner.text.toList) = word
    by_cases hword : word ∈ ["ll", "lr", "ul", "ur"]
    · rw [if_pos hword]
      simp only [List.mem_cons, List.not_mem_nil, or_false] at hword
      rcases hword with rfl | rfl | rfl | rfl
      · exact .pure Corner.lowerLeft
      · exact .pure Corner.lowerRight
      · exact .pure Corner.upperLeft
      · exact .pure Corner.upperRight
    · rw [if_neg hword]
      simp only [List.mem_cons, List.not_mem_nil, or_false, not_or] at hword
      obtain ⟨hll, hlr, hul, hur⟩ := hword
      rw [if_neg hll, if_neg hlr, if_neg hul, if_neg hur]
      rfl

theorem Drawing.settingOr_succeeds {key : String} {read : Operand → Outcome α} (otherwise : α)
    (hread : ∀ value, command.setting? key = some value → (read value).Succeeds) :
    (Style.settingOr command key read otherwise).Succeeds := by
  rw [Style.settingOr]
  split
  next value hvalue => exact hread value hvalue
  next => exact .pure otherwise

theorem Script.Command.Admitted.numberSetting (hadmitted : command.Admitted)
    (hverb : command.verb = verb) {key : String} {kind : Kind}
    (hkey : verb.form.keyedKind? key = some kind) (hkind : kind.isNumeric = true)
    (otherwise : Double) : (Style.settingOr command key Operand.number otherwise).Succeeds :=
  settingOr_succeeds otherwise fun _ hvalue =>
    Kind.number_succeeds hkind (hadmitted.setting hverb hkey hvalue)

theorem Script.Command.Admitted.colorSetting (hadmitted : command.Admitted)
    (hverb : command.verb = verb) {key : String} (hkey : verb.form.keyedKind? key = some .color)
    (otherwise : Color.Rgb) : (Style.settingOr command key Operand.color otherwise).Succeeds :=
  settingOr_succeeds otherwise fun _ hvalue =>
    Kind.color_succeeds (hadmitted.setting hverb hkey hvalue)

theorem Drawing.Style.overlay_succeeds (hadmitted : command.Admitted)
    (hverb : command.verb = .text)
    (hprovides : ∀ request ∈ command.request?, stock.Provides request) (style : Style) :
    (style.overlay stock command).Succeeds := by
  have hfont (name : Operand) (hname : command.setting? "ff" = some name) :
      (stock.font name.text).Succeeds := by
    refine Stock.font_succeeds (hprovides _ ?_)
    rw [Command.request?, hverb]
    simp only [hname, Option.map_some, Option.mem_def]
  refine (settingOr_succeeds style.font hfont).bind fun _ _ => ?_
  have hmode (value : Operand) (hvalue : command.setting? "rm" = some value) :
      value.integer.Succeeds :=
    Kind.integer_succeeds (hadmitted.setting hverb rfl hvalue)
  refine (hadmitted.numberSetting hverb rfl rfl style.fontSize).bind fun _ _ => ?_
  refine (hadmitted.numberSetting hverb rfl rfl style.leading).bind fun _ _ => ?_
  refine (hadmitted.numberSetting hverb rfl rfl style.charSpacing).bind fun _ _ => ?_
  refine (hadmitted.numberSetting hverb rfl rfl style.wordSpacing).bind fun _ _ => ?_
  refine (hadmitted.numberSetting hverb rfl rfl style.rise).bind fun _ _ => ?_
  refine (settingOr_succeeds style.renderingMode hmode).bind fun _ _ => ?_
  refine (hadmitted.numberSetting hverb rfl rfl style.horizontalScaling).bind fun _ _ => ?_
  refine (hadmitted.colorSetting hverb rfl style.fill).bind fun _ _ => ?_
  refine (hadmitted.colorSetting hverb rfl style.stroke).bind fun _ _ => ?_
  refine (hadmitted.numberSetting hverb rfl rfl style.lineWidth).bind fun _ _ => ?_
  exact .pure _

end Access

namespace Drawing

variable {scene : Scene} {pen : Pen} {command : Command}

theorem Pen.draw_succeeds (pen : Pen) (calls : List Call) : (pen.draw calls).Succeeds :=
  ⟨pen, rfl⟩

theorem Pen.openText_succeeds (pen : Pen) : pen.openText.Succeeds := by
  rw [Pen.openText_eq]
  exact ⟨_, rfl⟩

section Parts

variable (hadmitted : command.Admitted)

include hadmitted

theorem dashes_succeeds (hverb : command.verb = .lineDash) : (dashes command).Succeeds := by
  have hkind (index : Nat) : (Verb.lineDash.form.kindAt index).isNumeric = true := by
    cases index <;> rfl
  have hleast := hadmitted.least_le
  rw [hverb] at hleast
  have hpositive : 1 ≤ command.operands.length := hleast
  have hnumbers : Outcome.Succeeds (command.operands.mapM (Operand.number (α := Double))) := by
    refine .mapM fun operand hmem => ?_
    obtain ⟨index, hget⟩ := List.mem_iff_getElem?.1 hmem
    exact Kind.number_succeeds (hkind index) (hverb ▸ hadmitted.operands hget)
  refine hnumbers.bind fun values hvalues => ?_
  have hphase : ∃ phase, values.getLast? = some phase := by
    cases hoperands : command.operands with
    | nil =>
      rw [hoperands] at hpositive
      cases hpositive
    | cons first rest =>
      rw [hoperands, List.mapM_cons] at hvalues
      obtain ⟨value, -, hvalues⟩ := Outcome.bind_eq_ok.1 hvalues
      obtain ⟨others, -, hvalues⟩ := Outcome.bind_eq_ok.1 hvalues
      cases hvalues
      exact ⟨_, List.getLast?_eq_some_getLast (List.cons_ne_nil value others)⟩
  obtain ⟨phase, hphase⟩ := hphase
  rw [hphase]
  exact .pure _

theorem matrixOf_succeeds (hverb : command.verb = .textMatrix) : (matrixOf command).Succeeds := by
  refine (hadmitted.number hverb 0 (by decide) rfl).bind fun _ _ => ?_
  refine (hadmitted.number hverb 1 (by decide) rfl).bind fun _ _ => ?_
  refine (hadmitted.number hverb 2 (by decide) rfl).bind fun _ _ => ?_
  refine (hadmitted.number hverb 3 (by decide) rfl).bind fun _ _ => ?_
  refine (hadmitted.number hverb 4 (by decide) rfl).bind fun _ _ => ?_
  exact (hadmitted.number hverb 5 (by decide) rfl).bind fun _ _ => .pure _

theorem curve_endsIn (hverb : command.verb = .curveTo) :
    (scene.curve command).EndsIn
      (if command.operands.length = 5 then some (.curveOperands 5) else none) := by
  have hleast := hadmitted.least_le
  have hmost : command.operands.length ≤ 6 := by
    refine hadmitted.le_most ?_
    rw [hverb]
    rfl
  rw [hverb] at hleast
  have hfour : 4 ≤ command.operands.length := hleast
  have hcount : command.operands.length = 4 ∨ command.operands.length = 5 ∨
      command.operands.length = 6 := by omega
  rcases hcount with hcount | hcount | hcount
  · rw [Scene.curve, hcount]
    refine .bind (pointAt_succeeds hadmitted hverb scene.frame (by omega) rfl rfl) fun _ _ => ?_
    refine .bind (pointAt_succeeds hadmitted hverb scene.frame (by omega) rfl rfl) fun _ _ => ?_
    exact .pure _
  · rw [Scene.curve, hcount]
    rfl
  · rw [Scene.curve, hcount]
    refine .bind (pointAt_succeeds hadmitted hverb scene.frame (by omega) rfl rfl) fun _ _ => ?_
    refine .bind (pointAt_succeeds hadmitted hverb scene.frame (by omega) rfl rfl) fun _ _ => ?_
    refine .bind (pointAt_succeeds hadmitted hverb scene.frame (by omega) rfl rfl) fun _ _ => ?_
    exact .pure _

theorem textPosition_endsIn (hverb : command.verb = .text) :
    (scene.textPosition command).EndsIn
      (if command.operands.length = 2 then some (.textOperands 2) else none) := by
  have hleast := hadmitted.least_le
  have hmost : command.operands.length ≤ 3 := by
    refine hadmitted.le_most ?_
    rw [hverb]
    rfl
  rw [hverb] at hleast
  have hone : 1 ≤ command.operands.length := hleast
  have hcount : command.operands.length = 1 ∨ command.operands.length = 2 ∨
      command.operands.length = 3 := by omega
  rcases hcount with hcount | hcount | hcount
  · rw [Scene.textPosition, hcount]
    exact .pure none
  · rw [Scene.textPosition, hcount]
    rfl
  · rw [Scene.textPosition, hcount]
    have hpoint : (scene.point command 1).Succeeds :=
      pointAt_succeeds hadmitted hverb scene.frame (by omega) rfl rfl
    obtain ⟨position, hposition⟩ := hpoint
    exact ⟨some position, by rw [hposition]; rfl⟩

theorem rectangleBox_endsIn {verb : Verb} (hverb : command.verb = verb) (hleast : 4 ≤ verb.form.least)
    (hkinds : ∀ index < 4, (verb.form.kindAt index).isNumeric = true) (frame : Frame Double) :
    (rectangleBox frame command).EndsIn command.cornerFault? := by
  refine .bind (hadmitted.point hverb frame 0 (by omega) (hkinds 0 (by omega))
    (hkinds 1 (by omega))) fun _ _ => ?_
  refine .bind (hadmitted.number hverb 2 (by omega) (hkinds 2 (by omega))) fun _ _ => ?_
  refine .bind (hadmitted.number hverb 3 (by omega) (hkinds 3 (by omega))) fun _ _ => ?_
  exact .bind_succeeds (Corner.ofSetting_endsIn command) fun _ _ => .pure _

theorem pictureBox_endsIn (hverb : command.verb = .image) (frame : Frame Double)
    (natural : Double × Double) :
    (pictureBox frame natural command).EndsIn command.cornerFault? := by
  have hextent {key : String} (hkey : Verb.image.form.keyedKind? key = some .nonNegative) :
      Outcome.Succeeds (extent? (command.setting? key) : Outcome (Option Double)) := by
    cases hsetting : command.setting? key with
    | none => exact .pure none
    | some operand =>
      have hnumber : Outcome.Succeeds (operand.number : Outcome Double) :=
        Kind.number_succeeds rfl (hadmitted.setting hverb hkey hsetting)
      exact hnumber.bind fun _ _ => .pure _
  refine .bind (hextent rfl) fun _ _ => ?_
  refine .bind (hextent rfl) fun _ _ => ?_
  refine .bind (hadmitted.point hverb frame 1 (by decide) rfl rfl) fun _ _ => ?_
  exact .bind_succeeds (Corner.ofSetting_endsIn command) fun _ _ => .pure _

theorem showText_endsIn (hverb : command.verb = .text)
    (hprovides : ∀ request ∈ command.request?, scene.stock.Provides request) :
    (scene.showText pen command).EndsIn
      (if command.operands.length = 2 then some (.textOperands 2) else none) := by
  refine .check_succeeds (textPosition_endsIn hadmitted hverb) fun position? _ => ?_
  refine pen.openText_succeeds.bind fun opened _ => ?_
  refine .check (Style.overlay_succeeds hadmitted hverb hprovides opened.style) fun shown _ => ?_
  refine Traced.Succeeds.bind ⟨(), rfl⟩ fun _ _ => ?_
  cases position? with
  | none => exact .check (hadmitted.operand hverb 0 (by decide)) fun _ _ => ⟨_, rfl⟩
  | some position =>
    refine Traced.Succeeds.bind ⟨(), rfl⟩ fun _ _ => ?_
    exact .check (hadmitted.operand hverb 0 (by decide)) fun _ _ => ⟨_, rfl⟩

theorem showPicture_endsIn (hverb : command.verb = .image)
    (hprovides : ∀ request ∈ command.request?, scene.stock.Provides request) :
    (scene.showPicture pen command).EndsIn command.cornerFault? := by
  refine .check (hadmitted.operand hverb 0 (by decide)) fun path hpath => ?_
  have hpicture : (scene.stock.picture path.text).Succeeds := by
    refine Stock.picture_succeeds (hprovides _ ?_)
    rw [Command.request?, hverb, Command.operand_eq_ok.1 hpath]
    rfl
  refine .check hpicture fun picture _ => ?_
  exact .check_succeeds (pictureBox_endsIn hadmitted hverb scene.frame picture.naturalSize)
    fun box _ => pen.draw_succeeds _

theorem showLiteral_endsIn (hverb : command.verb = .literal) :
    (Scene.showLiteral pen command).EndsIn
      (if command.operands[0]? = some ⟨""⟩ then some .emptyLiteral else none) := by
  refine .check (hadmitted.operand hverb 0 (by decide)) fun operand hoperand => ?_
  rw [Command.operand_eq_ok.1 hoperand]
  by_cases hempty : operand.text = ""
  · rw [if_pos hempty, if_pos (by rw [← hempty])]
    rfl
  · rw [if_neg hempty, if_neg (by rintro ⟨⟩; exact hempty rfl)]
    exact pen.draw_succeeds _

/-- A command that was read and loaded for ends in its fault, and succeeds if it has none. -/
theorem perform_endsIn (hprovides : ∀ request ∈ command.request?, scene.stock.Provides request) :
    (scene.perform pen command).EndsIn command.fault? := by
  have hleast := hadmitted.least_le
  rw [Scene.perform, Command.fault?]
  -- What a verb reads is what its form declares, so each case goes down the operands in order.
  cases hverb : command.verb with
  | pages | fill | eoFill | stroke | fillStroke | eoFillStroke | closePathStroke
  | closePathFillStroke | closePathEoFillStroke | endPath | closePath => exact ⟨_, rfl⟩
  | fontSize | leading | charSpacing | wordSpacing | textRise | horizontalScaling | lineWidth
  | miterLimit => exact .check (hadmitted.number hverb 0 (by decide) rfl) fun _ _ => ⟨_, rfl⟩
  | textRenderingMode | lineCapStyle | lineJoinStyle =>
    exact .check (hadmitted.choice hverb (by decide) rfl) fun _ _ => ⟨_, rfl⟩
  | fontFile =>
    refine .check (hadmitted.operand hverb 0 (by decide)) fun name hname => ?_
    have hfont : (scene.stock.font name.text).Succeeds := by
      refine Stock.font_succeeds (hprovides _ ?_)
      rw [Command.request?, hverb, Command.operand_eq_ok.1 hname]
      rfl
    exact .check hfont fun _ _ => ⟨_, rfl⟩
  | fillColor | strokeColor =>
    rw [hverb] at hleast
    exact .check (hadmitted.colorAt hverb hleast rfl) fun _ _ => ⟨_, rfl⟩
  | color =>
    rw [hverb] at hleast
    have hpositive : 1 ≤ command.operands.length := hleast
    have hkind (index : Nat) : Verb.color.form.kindAt index = .color := by
      cases index <;> rfl
    refine .check (hadmitted.colorAt hverb hpositive (hkind 0)) fun fill _ => ?_
    refine Traced.EndsIn.bind ⟨_, rfl⟩ fun filled _ => ?_
    exact .check (hadmitted.colorAt hverb (by omega) (hkind _)) fun _ _ => ⟨_, rfl⟩
  | lineDash =>
    exact .check (dashes_succeeds hadmitted hverb) fun _ _ => ⟨_, rfl⟩
  | moveTo | lineTo =>
    exact .check (hadmitted.point hverb scene.frame 0 (by decide) rfl rfl) fun _ _ => ⟨_, rfl⟩
  | curveTo => exact .check_succeeds (curve_endsIn hadmitted hverb) fun _ _ => pen.draw_succeeds _
  | curveFromTo | ellipse =>
    refine .check (hadmitted.point hverb scene.frame 0 (by decide) rfl rfl) fun _ _ => ?_
    exact .check (hadmitted.point hverb scene.frame 2 (by decide) rfl rfl) fun _ _ => ⟨_, rfl⟩
  | arc =>
    refine .check (hadmitted.point hverb scene.frame 0 (by decide) rfl rfl) fun _ _ => ?_
    refine .check (hadmitted.point hverb scene.frame 2 (by decide) rfl rfl) fun _ _ => ?_
    refine .check (hadmitted.number hverb 4 (by decide) rfl) fun _ _ => ?_
    exact .check (hadmitted.number hverb 5 (by decide) rfl) fun _ _ => ⟨_, rfl⟩
  | circle =>
    refine .check (hadmitted.point hverb scene.frame 0 (by decide) rfl rfl) fun _ _ => ?_
    exact .check (hadmitted.number hverb 2 (by decide) rfl) fun _ _ => ⟨_, rfl⟩
  | rectangle =>
    refine .check_succeeds ?_ fun _ _ => ⟨_, rfl⟩
    exact rectangleBox_endsIn hadmitted hverb (by decide) (by decide) scene.frame
  | roundRectangle =>
    refine .check_succeeds ?_ fun _ _ => ?_
    · exact rectangleBox_endsIn hadmitted hverb (by decide) (by decide) scene.frame
    · exact .check (hadmitted.number hverb 4 (by decide) rfl) fun _ _ => ⟨_, rfl⟩
  | text => exact showText_endsIn hadmitted hverb hprovides
  | textMatrix =>
    refine Traced.EndsIn.bind pen.openText_succeeds fun opened _ => ?_
    exact .check (matrixOf_succeeds hadmitted hverb) fun _ _ => ⟨_, rfl⟩
  | textPos =>
    refine Traced.EndsIn.bind pen.openText_succeeds fun opened _ => ?_
    exact .check (hadmitted.point hverb scene.frame 0 (by decide) rfl rfl) fun _ _ => ⟨_, rfl⟩
  | image => exact showPicture_endsIn hadmitted hverb hprovides
  | literal => exact showLiteral_endsIn hadmitted hverb

end Parts

end Drawing

end Overprint
