import Overprint.Drawing.Execution
import Overprint.Proofs.Success

/-!
# What a command does

A command plays one of five parts on a page: it changes the style in force, it leaves a mark, it
opens a text object and moves in it, it shows text, or it writes something literal. `Step` says of
each part what is drawn and how the pen is left, and every command that is carried out takes such a
step.
-/

namespace Overprint

open Drawing Script

inductive Script.Role where
  | style
  | mark
  | position
  | text
  | literal
deriving DecidableEq

def Script.Verb.role : Verb → Role
  | .fontFile | .fontSize | .leading | .charSpacing | .wordSpacing | .textRise
  | .textRenderingMode | .horizontalScaling | .lineWidth | .fillColor | .strokeColor
  | .color => .style
  | .textMatrix | .textPos => .position
  | .text => .text
  | .literal => .literal
  | _ => .mark

/-- A value is what a setting of a command says or, if the command has no such setting, what it was
before. -/
def Script.Command.Sets {α : Type} (command : Command) (key : String) (read : Operand → Outcome α)
    (before after : α) : Prop :=
  match command.settings.get? key with
  | some operand => read operand = .ok after
  | none => after = before

theorem Script.Verb.role_eq_text {verb : Verb} : verb.role = .text ↔ verb = .text := by
  cases verb <;> simp [Verb.role]

theorem Script.Verb.role_eq_literal {verb : Verb} : verb.role = .literal ↔ verb = .literal := by
  cases verb <;> simp [Verb.role]

namespace Drawing

/-- The style after a command. Only commands that play the part of style change it. -/
def Style.change (stock : Stock) (style : Style) (command : Command) : Outcome Style := do
  match command.verb with
  | .fontFile => return { style with font := ← stock.font (← command.operand 0).text }
  | .fontSize => return { style with fontSize := ← command.number 0 }
  | .leading => return { style with leading := ← command.number 0 }
  | .charSpacing => return { style with charSpacing := ← command.number 0 }
  | .wordSpacing => return { style with wordSpacing := ← command.number 0 }
  | .textRise => return { style with rise := ← command.number 0 }
  | .textRenderingMode => return { style with renderingMode := ← choice command }
  | .horizontalScaling => return { style with horizontalScaling := ← command.number 0 }
  | .lineWidth => return { style with lineWidth := ← command.number 0 }
  | .fillColor => return { style with fill := ← colorAt command 0 }
  | .strokeColor => return { style with stroke := ← colorAt command 0 }
  | .color =>
    return {
      style with
      fill := ← colorAt command 0
      stroke := ← colorAt command (command.operands.length - 1) }
  | _ => return style

/-- A style with the settings of one command laid over it. -/
structure Style.LaidOver (style : Style) (stock : Stock) (command : Command) (shown : Style) :
    Prop where
  font : command.Sets "ff" (fun name => stock.font name.text) style.font shown.font
  fontSize : command.Sets "ps" Operand.number style.fontSize shown.fontSize
  leading : command.Sets "le" Operand.number style.leading shown.leading
  charSpacing : command.Sets "cs" Operand.number style.charSpacing shown.charSpacing
  wordSpacing : command.Sets "ws" Operand.number style.wordSpacing shown.wordSpacing
  rise : command.Sets "tr" Operand.number style.rise shown.rise
  renderingMode : command.Sets "rm" Operand.integer style.renderingMode shown.renderingMode
  horizontalScaling :
    command.Sets "hs" Operand.number style.horizontalScaling shown.horizontalScaling
  fill : command.Sets "fc" Operand.color style.fill shown.fill
  stroke : command.Sets "sc" Operand.color style.stroke shown.stroke
  lineWidth : command.Sets "lw" Operand.number style.lineWidth shown.lineWidth

theorem Style.sets_of_settingOr {α : Type} {command : Command} {key : String}
    {read : Operand → Outcome α} {otherwise value : α}
    (hvalue : settingOr command key read otherwise = .ok value) :
    command.Sets key read otherwise value := by
  rw [settingOr, Command.setting?] at hvalue
  rw [Command.Sets]
  cases hoperand : command.settings.get? key with
  | some operand =>
    rw [hoperand] at hvalue
    exact hvalue
  | none =>
    rw [hoperand] at hvalue
    exact (Except.ok.inj hvalue).symm

theorem Style.laidOver_of_overlay {style shown : Style} {stock : Stock} {command : Command}
    (hshown : style.overlay stock command = .ok shown) : style.LaidOver stock command shown := by
  obtain ⟨font, hfont, hshown⟩ := Outcome.bind_eq_ok.1 hshown
  obtain ⟨fontSize, hfontSize, hshown⟩ := Outcome.bind_eq_ok.1 hshown
  obtain ⟨leading, hleading, hshown⟩ := Outcome.bind_eq_ok.1 hshown
  obtain ⟨charSpacing, hcharSpacing, hshown⟩ := Outcome.bind_eq_ok.1 hshown
  obtain ⟨wordSpacing, hwordSpacing, hshown⟩ := Outcome.bind_eq_ok.1 hshown
  obtain ⟨rise, hrise, hshown⟩ := Outcome.bind_eq_ok.1 hshown
  obtain ⟨renderingMode, hmode, hshown⟩ := Outcome.bind_eq_ok.1 hshown
  obtain ⟨horizontalScaling, hhorizontal, hshown⟩ := Outcome.bind_eq_ok.1 hshown
  obtain ⟨fill, hfill, hshown⟩ := Outcome.bind_eq_ok.1 hshown
  obtain ⟨stroke, hstroke, hshown⟩ := Outcome.bind_eq_ok.1 hshown
  obtain ⟨lineWidth, hlineWidth, hshown⟩ := Outcome.bind_eq_ok.1 hshown
  cases hshown
  exact ⟨sets_of_settingOr hfont, sets_of_settingOr hfontSize, sets_of_settingOr hleading,
    sets_of_settingOr hcharSpacing, sets_of_settingOr hwordSpacing, sets_of_settingOr hrise,
    sets_of_settingOr hmode, sets_of_settingOr hhorizontal, sets_of_settingOr hfill,
    sets_of_settingOr hstroke, sets_of_settingOr hlineWidth⟩

/-- The calls that make a new style known to the page at once. The rest of it is made known by the
next text. -/
def Style.announced (style : Style) : Verb → List Call
  | .lineWidth => [.lineWidth style.lineWidth]
  | .fillColor => [.fillColor style.fill]
  | .strokeColor => [.strokeColor style.stroke]
  | .color => [.fillColor style.fill, .strokeColor style.stroke]
  | _ => []

/-- A call that leaves the attributes of a style as they are and opens no text object. -/
def Call.IsMark : Call → Prop
  | .path _ | .paint _ | .lineCap _ | .lineJoin _ | .miterLimit _ | .dash .. | .picture .. => True
  | _ => False

def Call.IsSilent : Call → Prop
  | .showText _ => False
  | _ => True

theorem Call.IsMark.isSilent {call : Call} (hmark : call.IsMark) : call.IsSilent := by
  cases call with
  | showText => exact hmark
  | _ => trivial

/-- The call that opens a text object, unless one is open. -/
def Pen.opening (pen : Pen) : List Call :=
  if pen.inText then [] else [.beginText]

/-- The call that moves a text to its position, if it has one. -/
def placing : Option (Number.Double × Number.Double) → List Call
  | some (x, y) => [.textMatrix (.at x y)]
  | none => []

def showing (text : String) : List Call :=
  ((lines text).map Call.showText).intersperse .nextLine

private theorem mem_intersperse {α : Type} {item separator : α} {items : List α}
    (hmem : item ∈ items.intersperse separator) : item = separator ∨ item ∈ items := by
  induction items with
  | nil => cases hmem
  | cons first rest ih =>
    cases rest with
    | nil => exact .inr hmem
    | cons second others =>
      rw [List.intersperse_cons_cons] at hmem
      rcases List.mem_cons.1 hmem with rfl | hmem
      · exact .inr List.mem_cons_self
      rcases List.mem_cons.1 hmem with rfl | hmem
      · exact .inl rfl
      · exact (ih hmem).imp_right (List.mem_cons_of_mem first)

theorem mem_showing {text : String} {call : Call} (hmem : call ∈ showing text) :
    call = .nextLine ∨ ∃ line, call = .showText line := by
  rcases mem_intersperse hmem with rfl | hmem
  · exact .inl rfl
  · obtain ⟨line, -, rfl⟩ := List.mem_map.1 hmem
    exact .inr ⟨line, rfl⟩

/-- What a command draws with a pen, and how it leaves the pen. -/
inductive Step (scene : Scene) (pen : Pen) (command : Command) : List Call → Pen → Prop
  | style {style : Style} (hrole : command.verb.role = .style)
      (hchange : pen.style.change scene.stock command = .ok style) :
      Step scene pen command (style.announced command.verb) { pen with style }
  | mark {calls : List Call} (hrole : command.verb.role = .mark)
      (hmarks : ∀ call ∈ calls, call.IsMark)
      (hpictures : ∀ picture box, .picture picture box ∈ calls →
        ∃ path, scene.stock.picture path = .ok picture) : Step scene pen command calls pen
  | position {matrix : Matrix} (hrole : command.verb.role = .position) :
      Step scene pen command (pen.opening ++ [.textMatrix matrix]) { pen with inText := true }
  | text {position? : Option (Number.Double × Number.Double)} {shown : Style} {operand : Operand}
      (hverb : command.verb = .text)
      (hposition : scene.textPosition command = .ok position?)
      (hshown : pen.style.overlay scene.stock command = .ok shown)
      (hoperand : command.operand 0 = .ok operand) :
      Step scene pen command
        (pen.opening ++ shown.apply ++ placing position? ++
          showing (scene.place.expand operand.text) ++ pen.style.restore shown)
        { pen with inText := true }
  | literal {content : String} (hverb : command.verb = .literal) (hcontent : content ≠ "") :
      Step scene pen command [.literal content] pen

/-- A text is shown in its own style, and the style is put back. -/
theorem Step.of_text {scene : Scene} {pen after : Pen} {command : Command} {trace : List Call}
    (hstep : Step scene pen command trace after) (hverb : command.verb = .text) :
    ∃ position? shown content, pen.style.overlay scene.stock command = .ok shown ∧
      trace = pen.opening ++ shown.apply ++ placing position? ++ showing content ++
        pen.style.restore shown := by
  cases hstep with
  | @text position? shown operand htext hposition hshown hoperand =>
    exact ⟨position?, shown, _, hshown, rfl⟩
  | style hrole | mark hrole | position hrole =>
    rw [hverb] at hrole
    cases hrole
  | literal hliteral hcontent =>
    rw [hverb] at hliteral
    cases hliteral

/-- Work that draws only calls of a kind and, if it succeeds, leaves the pen as it was. -/
structure Pen.Draws (kind : Call → Prop) (pen : Pen) (work : Sketch Pen) : Prop where
  calls : Traced.All kind work
  kept : ∀ after, work.outcome = .ok after → after = pen

namespace Pen

variable {kind : Call → Prop} {pen after : Pen} {calls trace : List Call}

theorem Draws.same (pen : Pen) : pen.Draws kind (pure pen) :=
  ⟨.pure pen, fun _ h => by cases h; rfl⟩

theorem Draws.draw (hcalls : ∀ call ∈ calls, kind call) : pen.Draws kind (pen.draw calls) := by
  refine ⟨?_, fun _ h => by cases h; rfl⟩
  exact (Traced.All.recordAll hcalls).bind fun _ => .pure pen

theorem Draws.check {α : Type} {outcome : Outcome α} {next : α → Sketch Pen}
    (hnext : ∀ value, outcome = .ok value → pen.Draws kind (next value)) :
    pen.Draws kind ((liftM outcome : Sketch α) >>= next) := by
  constructor
  · intro call hmem
    rcases Traced.mem_trace_bind hmem with hmem | ⟨value, hvalue, hmem⟩
    · cases hmem
    · exact (hnext value hvalue).calls call hmem
  · intro after h
    obtain ⟨value, hvalue, h⟩ := Traced.outcome_bind_eq_ok.1 h
    exact (hnext value hvalue).kept after h

theorem draw_eq_ok : pen.draw calls = ⟨trace, .ok after⟩ ↔ trace = calls ∧ after = pen := by
  rw [draw, record, Traced.recordAll_bind_eq_ok]
  constructor
  · rintro ⟨last, hlast, rfl⟩
    cases hlast
    exact ⟨List.append_nil calls, rfl⟩
  · rintro ⟨rfl, rfl⟩
    exact ⟨[], rfl, (List.append_nil trace).symm⟩

theorem openText_eq (pen : Pen) : pen.openText = ⟨pen.opening, .ok { pen with inText := true }⟩ := by
  obtain ⟨style, inText⟩ := pen
  cases inText <;> rfl

end Pen

variable {scene : Scene} {pen after : Pen} {command : Command} {trace : List Call}

/-- A call that a command of the part of mark makes. A picture is one that is at hand. -/
def Scene.Marks (scene : Scene) (call : Call) : Prop :=
  call.IsMark ∧ ∀ picture box, call = .picture picture box →
    ∃ path, scene.stock.picture path = .ok picture

theorem marks_perform (hrole : command.verb.role = .mark) :
    pen.Draws scene.Marks (scene.perform pen command) := by
  have hplain {call : Call} (hmark : call.IsMark)
      (hcall : ∀ picture box, call ≠ .picture picture box) : scene.Marks call :=
    ⟨hmark, fun picture box heq => (hcall picture box heq).elim⟩
  have hone {call : Call} (hcall : scene.Marks call) :
      pen.Draws scene.Marks (pen.draw [call]) := by
    refine .draw fun other hmem => ?_
    cases List.mem_singleton.1 hmem
    exact hcall
  have hpath (segments : List (Geometry.Segment Number.Double)) :
      pen.Draws scene.Marks (pen.drawPath segments) := by
    refine .draw fun call hmem => ?_
    obtain ⟨segment, -, rfl⟩ := List.mem_map.1 hmem
    exact hplain trivial (by simp)
  obtain ⟨verb, operands, settings⟩ := command
  cases verb with
  | pages => exact .same pen
  | fill | eoFill | stroke | fillStroke | eoFillStroke | closePathStroke | closePathFillStroke
  | closePathEoFillStroke | endPath => exact hone (hplain trivial (by simp))
  | closePath => exact hpath _
  | lineCapStyle | lineJoinStyle | miterLimit | lineDash =>
    exact .check fun _ _ => hone (hplain trivial (by simp))
  | moveTo | lineTo | curveTo => exact .check fun _ _ => hpath _
  | curveFromTo | ellipse | circle => exact .check fun _ _ => .check fun _ _ => hpath _
  | arc =>
    exact .check fun _ _ => .check fun _ _ => .check fun _ _ => .check fun _ _ => hpath _
  | rectangle => exact .check fun _ _ => hpath _
  | roundRectangle => exact .check fun _ _ => .check fun _ _ => hpath _
  | image =>
    refine .check fun path _ => .check fun picture hpicture => .check fun _ _ => hone ?_
    refine ⟨trivial, fun other box heq => ⟨path.text, ?_⟩⟩
    cases heq
    exact hpicture
  | _ => cases hrole

/-- A command that plays the part of style changes the style and announces the change. -/
theorem perform_style (hrole : command.verb.role = .style)
    (hperform : scene.perform pen command = ⟨trace, .ok after⟩) :
    ∃ style, pen.style.change scene.stock command = .ok style ∧
      trace = style.announced command.verb ∧ after = { pen with style } := by
  obtain ⟨verb, operands, settings⟩ := command
  cases verb with
  | fontFile =>
    obtain ⟨name, hname, hperform⟩ := Traced.check_bind_eq_ok.1 hperform
    obtain ⟨font, hfont, hperform⟩ := Traced.check_bind_eq_ok.1 hperform
    cases hperform
    refine ⟨{ pen.style with font }, ?_, rfl, rfl⟩
    exact Outcome.bind_eq_ok.2 ⟨name, hname, Outcome.bind_eq_ok.2 ⟨font, hfont, rfl⟩⟩
  | fontSize | leading | charSpacing | wordSpacing | textRise | textRenderingMode
  | horizontalScaling =>
    obtain ⟨value, hvalue, hperform⟩ := Traced.check_bind_eq_ok.1 hperform
    cases hperform
    exact ⟨_, Outcome.bind_eq_ok.2 ⟨value, hvalue, rfl⟩, rfl, rfl⟩
  | lineWidth | fillColor | strokeColor =>
    obtain ⟨value, hvalue, hperform⟩ := Traced.check_bind_eq_ok.1 hperform
    cases hperform
    exact ⟨_, Outcome.bind_eq_ok.2 ⟨value, hvalue, rfl⟩, rfl, rfl⟩
  | color =>
    obtain ⟨fill, hfill, hperform⟩ := Traced.check_bind_eq_ok.1 hperform
    obtain ⟨first, filled, last, hfilled, hperform, rfl⟩ := Traced.bind_eq_ok.1 hperform
    cases hfilled
    obtain ⟨stroke, hstroke, hperform⟩ := Traced.check_bind_eq_ok.1 hperform
    cases hperform
    refine ⟨{ pen.style with fill, stroke }, ?_, rfl, rfl⟩
    exact Outcome.bind_eq_ok.2 ⟨fill, hfill, Outcome.bind_eq_ok.2 ⟨stroke, hstroke, rfl⟩⟩
  | _ => cases hrole

theorem perform_position (hrole : command.verb.role = .position)
    (hperform : scene.perform pen command = ⟨trace, .ok after⟩) :
    ∃ matrix, trace = pen.opening ++ [.textMatrix matrix] ∧
      after = { pen with inText := true } := by
  obtain ⟨verb, operands, settings⟩ := command
  cases verb with
  | textMatrix | textPos =>
    obtain ⟨first, opened, last, hopened, hperform, rfl⟩ := Traced.bind_eq_ok.1 hperform
    rw [Pen.openText_eq] at hopened
    cases hopened
    obtain ⟨_, -, hperform⟩ := Traced.check_bind_eq_ok.1 hperform
    obtain ⟨rfl, rfl⟩ := Pen.draw_eq_ok.1 hperform
    exact ⟨_, rfl, rfl⟩
  | _ => cases hrole

/-- Showing the lines of a text and putting the style back, once the text is in its position. -/
private theorem showLines_eq_ok {shown : Style}
    (hshow : (do
      let operand ← command.operand 0
      record (showing (scene.place.expand operand.text))
      pen.draw (pen.style.restore shown) : Sketch Pen) = ⟨trace, .ok after⟩) :
    ∃ operand, command.operand 0 = .ok operand ∧
      trace = showing (scene.place.expand operand.text) ++ pen.style.restore shown ∧
      after = pen := by
  obtain ⟨operand, hoperand, hshow⟩ := Traced.check_bind_eq_ok.1 hshow
  obtain ⟨last, hdraw, htrace⟩ := Traced.recordAll_bind_eq_ok.1 hshow
  obtain ⟨rfl, rfl⟩ := Pen.draw_eq_ok.1 hdraw
  exact ⟨operand, hoperand, htrace, rfl⟩

theorem showText_eq_ok (hshow : scene.showText pen command = ⟨trace, .ok after⟩) :
    ∃ position? shown operand, scene.textPosition command = .ok position? ∧
      pen.style.overlay scene.stock command = .ok shown ∧ command.operand 0 = .ok operand ∧
      trace = pen.opening ++ shown.apply ++ placing position? ++
        showing (scene.place.expand operand.text) ++ pen.style.restore shown ∧
      after = { pen with inText := true } := by
  obtain ⟨position?, hposition, hrest⟩ := Traced.check_bind_eq_ok.1 hshow
  obtain ⟨_, opened, afterOpening, hopened, hrest, rfl⟩ := Traced.bind_eq_ok.1 hrest
  rw [Pen.openText_eq] at hopened
  cases hopened
  obtain ⟨shown, hshown, hrest⟩ := Traced.check_bind_eq_ok.1 hrest
  obtain ⟨afterStyle, hstyled, rfl⟩ := Traced.recordAll_bind_eq_ok.1 hrest
  have hplaced : ∃ operand, command.operand 0 = .ok operand ∧
      afterStyle = placing position? ++
        (showing (scene.place.expand operand.text) ++ pen.style.restore shown) ∧
      after = { pen with inText := true } := by
    cases position? with
    | none =>
      simp only [placing, List.nil_append]
      exact showLines_eq_ok hstyled
    | some position =>
      obtain ⟨last, hplaced, rfl⟩ := Traced.recordAll_bind_eq_ok.1 hstyled
      obtain ⟨operand, hoperand, rfl, rfl⟩ := showLines_eq_ok hplaced
      exact ⟨operand, hoperand, rfl, rfl⟩
  obtain ⟨operand, hoperand, rfl, rfl⟩ := hplaced
  refine ⟨position?, shown, operand, hposition, hshown, hoperand, ?_, rfl⟩
  simp only [List.append_assoc]

/-- A command that is carried out takes a step. -/
theorem step_of_perform (hperform : scene.perform pen command = ⟨trace, .ok after⟩) :
    Step scene pen command trace after := by
  cases hrole : command.verb.role with
  | style =>
    obtain ⟨style, hchange, rfl, rfl⟩ := perform_style hrole hperform
    exact .style hrole hchange
  | mark =>
    have hmarks : pen.Draws scene.Marks (scene.perform pen command) := marks_perform hrole
    rw [hperform] at hmarks
    cases hmarks.kept after rfl
    exact .mark hrole (fun call hmem => (hmarks.calls call hmem).1)
      fun picture box hmem => (hmarks.calls _ hmem).2 picture box rfl
  | position =>
    obtain ⟨matrix, rfl, rfl⟩ := perform_position hrole hperform
    exact .position hrole
  | text =>
    have hverb := Verb.role_eq_text.1 hrole
    rw [Scene.perform, hverb] at hperform
    obtain ⟨position?, shown, operand, hposition, hshown, hoperand, rfl, rfl⟩ :=
      showText_eq_ok hperform
    exact .text hverb hposition hshown hoperand
  | literal =>
    have hverb := Verb.role_eq_literal.1 hrole
    rw [Scene.perform, hverb] at hperform
    obtain ⟨operand, -, hperform⟩ := Traced.check_bind_eq_ok.1 hperform
    dsimp only at hperform
    split at hperform
    · cases hperform
    next hcontent =>
      obtain ⟨rfl, rfl⟩ := Pen.draw_eq_ok.1 hperform
      exact .literal hverb hcontent

def Style.entered (style : Style) : List Call :=
  [.save, .fillColor style.fill, .strokeColor style.stroke, .lineWidth style.lineWidth]

def Pen.closing (pen : Pen) : List Call :=
  if pen.inText then [.endText, .restore] else [.restore]

/-- A page is what its commands draw, between calls that start and end it. -/
theorem run_eq (scene : Scene) (style : Style) (commands : List Command) :
    scene.run style commands = (do
      record style.entered
      let pen ← commands.foldlM scene.perform { style }
      record pen.closing) := by
  have hclosing (pen : Pen) : (do
      if pen.inText then record [.endText]
      record [.restore] : Sketch Unit) = record pen.closing := by
    rw [Pen.closing]
    cases hopen : pen.inText <;> rfl
  rw [Scene.run]
  simp only [hclosing]
  rfl

theorem run_eq_ok {style : Style} {commands : List Command}
    (hrun : scene.run style commands = ⟨trace, .ok ()⟩) :
    ∃ drawn pen, commands.foldlM scene.perform { style } = ⟨drawn, .ok pen⟩ ∧
      trace = style.entered ++ (drawn ++ pen.closing) := by
  rw [run_eq] at hrun
  obtain ⟨rest, hrest, rfl⟩ := Traced.recordAll_bind_eq_ok.1 hrun
  obtain ⟨drawn, pen, closing, hdrawn, hclosing, rfl⟩ := Traced.bind_eq_ok.1 hrest
  cases hclosing
  exact ⟨drawn, pen, hdrawn, rfl⟩

theorem page_eq_ok {defaults : Defaults} {commands : List Command}
    (hpage : scene.page defaults commands = ⟨trace, .ok ()⟩) :
    ∃ style drawn pen, Style.ofDefaults defaults scene.stock.defaultFont = .ok style ∧
      commands.foldlM scene.perform { style } = ⟨drawn, .ok pen⟩ ∧
      trace = style.entered ++ (drawn ++ pen.closing) := by
  obtain ⟨style, hstyle, hrun⟩ := Traced.check_bind_eq_ok.1 hpage
  obtain ⟨drawn, pen, hdrawn, rfl⟩ := run_eq_ok hrun
  exact ⟨style, drawn, pen, hstyle, hdrawn, rfl⟩

section Silence

theorem Pen.silent_opening (pen : Pen) : ∀ call ∈ pen.opening, call.IsSilent := by
  intro call hmem
  rw [opening] at hmem
  split at hmem
  · cases hmem
  · cases List.mem_singleton.1 hmem
    trivial

theorem silent_openText (pen : Pen) : Traced.All Call.IsSilent pen.openText := by
  rw [Pen.openText_eq]
  exact pen.silent_opening

theorem silent_apply (style : Style) : ∀ call ∈ style.apply, call.IsSilent := by
  simp [Style.apply, Call.IsSilent]

theorem silent_entered (style : Style) : ∀ call ∈ style.entered, call.IsSilent := by
  simp [Style.entered, Call.IsSilent]

theorem Pen.silent_closing (pen : Pen) : ∀ call ∈ pen.closing, call.IsSilent := by
  intro call hmem
  rw [closing] at hmem
  split at hmem
  · simp only [List.mem_cons, List.not_mem_nil, or_false] at hmem
    rcases hmem with rfl | rfl <;> trivial
  · cases List.mem_singleton.1 hmem
    trivial

theorem silent_perform (hrole : command.verb.role ≠ .text) :
    Traced.All Call.IsSilent (scene.perform pen command) := by
  cases hpart : command.verb.role with
  | text => exact absurd hpart hrole
  | mark => exact fun call hmem => ((marks_perform hpart).calls call hmem).1.isSilent
  | _ =>
    obtain ⟨verb, operands, settings⟩ := command
    cases verb with
    | fontSize | leading | charSpacing | wordSpacing | textRise | textRenderingMode
    | horizontalScaling => exact .check fun _ => .pure _
    | fontFile => exact .check fun _ => .check fun _ => .pure _
    | lineWidth | fillColor | strokeColor =>
      exact .check fun _ => .bind (.recordAll (by simp [Call.IsSilent])) fun _ => .pure _
    | color =>
      refine .check fun _ => .bind ?_ fun _ => .check fun _ => ?_
      · exact .bind (.recordAll (by simp [Call.IsSilent])) fun _ => .pure _
      · exact .bind (.recordAll (by simp [Call.IsSilent])) fun _ => .pure _
    | textMatrix | textPos =>
      refine .bind (silent_openText pen) fun _ => .check fun _ => ?_
      exact .bind (.recordAll (by simp [Call.IsSilent])) fun _ => .pure _
    | literal =>
      refine .check fun operand => ?_
      dsimp only
      split
      · exact .lift _
      · exact .bind (.recordAll (by simp [Call.IsSilent])) fun _ => .pure _
    | _ => cases hpart

theorem silent_showText : Traced.AllOnFailure Call.IsSilent (scene.showText pen command) := by
  refine .check fun position? => .bind (silent_openText pen) fun _ => .check fun shown => ?_
  refine .bind (.recordAll (silent_apply shown)) fun _ => ?_
  cases position? with
  | none => exact .check fun _ => Traced.Succeeds.allOnFailure ⟨_, rfl⟩
  | some position =>
    refine .bind (.recordAll (by simp [Call.IsSilent])) fun _ => ?_
    exact .check fun _ => Traced.Succeeds.allOnFailure ⟨_, rfl⟩

theorem silent_announced (style : Style) (verb : Verb) :
    ∀ call ∈ style.announced verb, call.IsSilent := by
  cases verb <;> simp [Style.announced, Call.IsSilent]

theorem silent_restore (style shown : Style) : ∀ call ∈ style.restore shown, call.IsSilent := by
  intro call hmem
  simp only [Style.restore, List.mem_append, List.mem_ite_nil_left, List.mem_singleton] at hmem
  rcases hmem with (⟨-, rfl⟩ | ⟨-, rfl⟩) | ⟨-, rfl⟩ <;> trivial

theorem Step.silent (hstep : Step scene pen command trace after) (hverb : command.verb ≠ .text) :
    ∀ call ∈ trace, call.IsSilent := by
  cases hstep with
  | @style style hrole hchange => exact silent_announced style command.verb
  | mark hrole hmarks => exact fun call hmem => (hmarks call hmem).isSilent
  | position hrole =>
    intro call hmem
    rcases List.mem_append.1 hmem with hmem | hmem
    · exact pen.silent_opening call hmem
    · cases List.mem_singleton.1 hmem
      trivial
  | text htext hposition hshown hoperand => exact absurd htext hverb
  | literal hverb hcontent =>
    intro call hmem
    cases List.mem_singleton.1 hmem
    trivial

theorem silent_of_error {failure : Failure}
    (herror : (scene.perform pen command).outcome = .error failure) :
    ∀ call ∈ (scene.perform pen command).trace, call.IsSilent := by
  by_cases hrole : command.verb.role = .text
  · rw [Scene.perform, Verb.role_eq_text.1 hrole] at herror ⊢
    exact silent_showText failure herror
  · exact silent_perform hrole

end Silence

end Drawing

end Overprint
