import Overprint.Proofs.Drawing.Step

/-!
# The graphics state follows the style

A surface keeps the attributes that the calls set, and a stack of those that were saved. While the
commands of a page are carried out, its colours and its line width are those of the style, and when a
text is shown all its attributes are those that the text asks for. So the settings of a text are
gone when the next command comes.
-/

namespace Overprint.Drawing

open Script

/-- The attributes in force on a surface, and the saved ones. -/
structure Graphics where
  current : Style
  saved : List Style

/-- Colours and line width are the same, or equal as numbers. -/
structure Style.Agrees (style other : Style) : Prop where
  fill : style.fill = other.fill ∨ style.fill.equal other.fill = true
  stroke : style.stroke = other.stroke ∨ style.stroke.equal other.stroke = true
  lineWidth : style.lineWidth = other.lineWidth ∨ style.lineWidth.equal other.lineWidth = true

/-- A style with everything as in some defaults. -/
structure Style.Starts (style : Style) (defaults : Defaults) (font : Font) : Prop where
  font : style.font = font
  fontSize : style.fontSize = defaults.fontSize.convert
  leading : style.leading = defaults.leading.convert
  charSpacing : style.charSpacing = defaults.charSpacing.convert
  wordSpacing : style.wordSpacing = defaults.wordSpacing.convert
  rise : style.rise = defaults.rise.convert
  renderingMode : style.renderingMode = defaults.renderingMode
  horizontalScaling : style.horizontalScaling = defaults.horizontalScaling.convert
  fill : Color.Rgb.read defaults.fillColor = .ok style.fill
  stroke : Color.Rgb.read defaults.strokeColor = .ok style.stroke
  lineWidth : style.lineWidth = defaults.lineWidth.convert

theorem Style.ofDefaults_of_starts {style : Style} {defaults : Defaults} {font : Font}
    (hstarts : style.Starts defaults font) : ofDefaults defaults font = .ok style := by
  obtain ⟨_, _, _, _, _, _, _, _, fill, stroke, _⟩ := style
  obtain ⟨rfl, rfl, rfl, rfl, rfl, rfl, rfl, rfl, hfill, hstroke, rfl⟩ := hstarts
  exact Outcome.bind_eq_ok.2 ⟨fill, hfill, Outcome.bind_eq_ok.2 ⟨stroke, hstroke, rfl⟩⟩

namespace Graphics

def save (graphics : Graphics) : Graphics :=
  ⟨graphics.current, graphics.current :: graphics.saved⟩

def restore? (graphics : Graphics) : Option Graphics :=
  match graphics.saved with
  | style :: saved => some ⟨style, saved⟩
  | [] => none

/-- The graphics state after a call. A picture is shown between a save and a restore; what something
literal does is not known. -/
def step (graphics : Graphics) (call : Call) : Option Graphics :=
  let style := graphics.current
  match call with
  | .save => some graphics.save
  | .restore => graphics.restore?
  | .fillColor fill => some { graphics with current := { style with fill } }
  | .strokeColor stroke => some { graphics with current := { style with stroke } }
  | .lineWidth lineWidth => some { graphics with current := { style with lineWidth } }
  | .font font fontSize => some { graphics with current := { style with font, fontSize } }
  | .leading leading => some { graphics with current := { style with leading } }
  | .charSpacing charSpacing => some { graphics with current := { style with charSpacing } }
  | .wordSpacing wordSpacing => some { graphics with current := { style with wordSpacing } }
  | .rise rise => some { graphics with current := { style with rise } }
  | .renderingMode renderingMode =>
    some { graphics with current := { style with renderingMode } }
  | .horizontalScaling horizontalScaling =>
    some { graphics with current := { style with horizontalScaling } }
  | .picture .. => graphics.save.restore?
  | .literal _ => none
  | .path _ | .paint _ | .lineCap _ | .lineJoin _ | .miterLimit _ | .dash .. | .beginText
  | .endText | .textMatrix _ | .showText _ | .nextLine => some graphics

def after (graphics : Graphics) (calls : List Call) : Option Graphics :=
  calls.foldlM step graphics

theorem after_append (graphics : Graphics) (first second : List Call) :
    graphics.after (first ++ second) = graphics.after first >>= fun next => next.after second :=
  List.foldlM_append

theorem after_append_of_some {graphics next : Graphics} {first : List Call}
    (hfirst : graphics.after first = some next) (second : List Call) :
    graphics.after (first ++ second) = next.after second := by
  rw [after_append, hfirst]
  rfl

/-- Calls that never change the graphics state. -/
def Inert (calls : List Call) : Prop :=
  ∀ call ∈ calls, ∀ graphics : Graphics, graphics.step call = some graphics

theorem Inert.append {first second : List Call} (hfirst : Inert first) (hsecond : Inert second) :
    Inert (first ++ second) := by
  intro call hmem
  rcases List.mem_append.1 hmem with hmem | hmem
  · exact hfirst call hmem
  · exact hsecond call hmem

theorem Inert.after {calls : List Call} (hinert : Inert calls) (graphics : Graphics) :
    graphics.after calls = some graphics := by
  induction calls with
  | nil => rfl
  | cons call rest ih =>
    rw [Graphics.after, List.foldlM_cons, hinert call List.mem_cons_self graphics]
    exact ih fun other hmem => hinert other (List.mem_cons_of_mem call hmem)

theorem inert_of_marks {calls : List Call} (hmarks : ∀ call ∈ calls, call.IsMark) :
    Inert calls := by
  intro call hmem graphics
  have hmark := hmarks call hmem
  cases call with
  | path | paint | lineCap | lineJoin | miterLimit | dash | picture => rfl
  | _ => exact hmark.elim

theorem inert_opening (pen : Pen) : Inert pen.opening := by
  intro call hmem graphics
  rw [Pen.opening] at hmem
  split at hmem
  · cases hmem
  · cases List.mem_singleton.1 hmem
    rfl

theorem inert_placing (position? : Option (Number.Double × Number.Double)) :
    Inert (placing position?) := by
  intro call hmem graphics
  cases position? with
  | none => cases hmem
  | some position =>
    cases List.mem_singleton.1 hmem
    rfl

theorem inert_showing (text : String) : Inert (showing text) := by
  intro call hmem graphics
  rcases mem_showing hmem with rfl | ⟨line, rfl⟩ <;> rfl

theorem after_apply (graphics : Graphics) (style : Style) :
    graphics.after style.apply = some { graphics with current := style } := rfl

/-- Once the style of a text is set it stays in force while the text is shown. -/
theorem after_applied (graphics : Graphics) (pen : Pen) (shown : Style) {calls : List Call}
    (hinert : Inert calls) :
    graphics.after (pen.opening ++ shown.apply ++ calls) = some ⟨shown, graphics.saved⟩ := by
  have hopening : graphics.after pen.opening = some graphics := (inert_opening pen).after graphics
  have happlied : graphics.after (pen.opening ++ shown.apply) = some ⟨shown, graphics.saved⟩ := by
    rw [after_append_of_some hopening, after_apply]
  rw [after_append_of_some happlied]
  exact hinert.after ⟨shown, graphics.saved⟩

theorem after_entered (graphics : Graphics) (style : Style) :
    ∃ current, graphics.after style.entered = some ⟨current, graphics.current :: graphics.saved⟩ ∧
      current.Agrees style :=
  ⟨_, rfl, ⟨.inl rfl, .inl rfl, .inl rfl⟩⟩

/-- Putting a style back leaves its colours and its line width in force. -/
theorem after_restore (shown style : Style) (saved : List Style) :
    ∃ current, Graphics.after ⟨shown, saved⟩ (style.restore shown) = some ⟨current, saved⟩ ∧
      current.Agrees style := by
  rw [Style.restore]
  by_cases hfill : shown.fill.equal style.fill = true <;>
  by_cases hstroke : shown.stroke.equal style.stroke = true <;>
  by_cases hwidth : shown.lineWidth.equal style.lineWidth = true
  all_goals
    simp only [hfill, hstroke, hwidth, reduceIte, List.nil_append, List.append_nil]
    exact ⟨_, rfl, ⟨by simp [hfill], by simp [hstroke], by simp [hwidth]⟩⟩

theorem after_announced {graphics : Graphics} {stock : Stock} {style changed : Style}
    {command : Command} (hchange : style.change stock command = .ok changed)
    (hagrees : graphics.current.Agrees style) :
    ∃ current, graphics.after (changed.announced command.verb) = some ⟨current, graphics.saved⟩ ∧
      current.Agrees changed := by
  obtain ⟨hfill, hstroke, hwidth⟩ := hagrees
  rw [Style.change] at hchange
  cases hverb : command.verb with
  | fontFile =>
    rw [hverb] at hchange
    obtain ⟨name, -, hchange⟩ := Outcome.bind_eq_ok.1 hchange
    obtain ⟨font, -, hchange⟩ := Outcome.bind_eq_ok.1 hchange
    cases hchange
    exact ⟨_, rfl, ⟨hfill, hstroke, hwidth⟩⟩
  | fontSize | leading | charSpacing | wordSpacing | textRise | textRenderingMode
  | horizontalScaling =>
    rw [hverb] at hchange
    obtain ⟨value, -, hchange⟩ := Outcome.bind_eq_ok.1 hchange
    cases hchange
    exact ⟨_, rfl, ⟨hfill, hstroke, hwidth⟩⟩
  | lineWidth =>
    rw [hverb] at hchange
    obtain ⟨lineWidth, -, hchange⟩ := Outcome.bind_eq_ok.1 hchange
    cases hchange
    exact ⟨_, rfl, ⟨hfill, hstroke, .inl rfl⟩⟩
  | fillColor =>
    rw [hverb] at hchange
    obtain ⟨fill, -, hchange⟩ := Outcome.bind_eq_ok.1 hchange
    cases hchange
    exact ⟨_, rfl, ⟨.inl rfl, hstroke, hwidth⟩⟩
  | strokeColor =>
    rw [hverb] at hchange
    obtain ⟨stroke, -, hchange⟩ := Outcome.bind_eq_ok.1 hchange
    cases hchange
    exact ⟨_, rfl, ⟨hfill, .inl rfl, hwidth⟩⟩
  | color =>
    rw [hverb] at hchange
    obtain ⟨fill, -, hchange⟩ := Outcome.bind_eq_ok.1 hchange
    obtain ⟨stroke, -, hchange⟩ := Outcome.bind_eq_ok.1 hchange
    cases hchange
    exact ⟨_, rfl, ⟨.inl rfl, .inl rfl, hwidth⟩⟩
  | _ =>
    rw [hverb] at hchange
    cases hchange
    exact ⟨_, rfl, ⟨hfill, hstroke, hwidth⟩⟩

end Graphics

theorem Style.change_of_role {stock : Stock} {style : Style} {command : Command}
    (hrole : command.verb.role ≠ .style) : style.change stock command = .ok style := by
  rw [Style.change]
  cases hverb : command.verb with
  | fontFile | fontSize | leading | charSpacing | wordSpacing | textRise | textRenderingMode
  | horizontalScaling | lineWidth | fillColor | strokeColor | color =>
    rw [hverb] at hrole
    exact absurd rfl hrole
  | _ => rfl

section Following

variable {scene : Scene} {pen after : Pen} {command : Command} {trace : List Call}

/-- A command that is carried out keeps the graphics state in step with the style. -/
theorem Step.follows {graphics : Graphics} (hstep : Step scene pen command trace after)
    (hliteral : command.verb ≠ .literal) (hfollows : graphics.current.Agrees pen.style) :
    ∃ current, graphics.after trace = some ⟨current, graphics.saved⟩ ∧
      current.Agrees after.style ∧ pen.style.change scene.stock command = .ok after.style := by
  cases hstep with
  | @style style hrole hchange =>
    obtain ⟨current, hafter, hagrees⟩ := Graphics.after_announced hchange hfollows
    exact ⟨current, hafter, hagrees, hchange⟩
  | mark hrole hmarks =>
    refine ⟨graphics.current, (Graphics.inert_of_marks hmarks).after graphics, hfollows, ?_⟩
    exact Style.change_of_role (by rw [hrole]; decide)
  | @position matrix hrole =>
    have hinert : Graphics.Inert (pen.opening ++ [.textMatrix matrix]) := by
      refine (Graphics.inert_opening pen).append fun call hmem _ => ?_
      cases List.mem_singleton.1 hmem
      rfl
    refine ⟨graphics.current, hinert.after graphics, hfollows, ?_⟩
    exact Style.change_of_role (by rw [hrole]; decide)
  | @text position? shown operand hverb hposition hshown hoperand =>
    have hinert : Graphics.Inert
        (placing position? ++ showing (scene.place.expand operand.text)) :=
      (Graphics.inert_placing position?).append (Graphics.inert_showing _)
    have hshow := graphics.after_applied pen shown hinert
    rw [← List.append_assoc] at hshow
    obtain ⟨current, hrestored, hagrees⟩ :=
      Graphics.after_restore shown pen.style graphics.saved
    refine ⟨current, ?_, hagrees, ?_⟩
    · rw [Graphics.after_append_of_some hshow, hrestored]
    · exact Style.change_of_role (by rw [hverb]; decide)
  | literal hverb hcontent => exact absurd hverb hliteral

/-- Commands that are carried out keep the graphics state in step with the style, which is the one
that the commands of the part of style make. -/
theorem follows_of_foldlM {graphics : Graphics} {commands : List Command}
    (hliteral : ∀ command ∈ commands, command.verb ≠ .literal)
    (hrun : commands.foldlM scene.perform pen = ⟨trace, .ok after⟩)
    (hfollows : graphics.current.Agrees pen.style) :
    ∃ current, graphics.after trace = some ⟨current, graphics.saved⟩ ∧
      current.Agrees after.style ∧
      commands.foldlM (Style.change scene.stock) pen.style = .ok after.style := by
  induction commands generalizing pen graphics trace with
  | nil =>
    cases hrun
    exact ⟨graphics.current, rfl, hfollows, rfl⟩
  | cons command rest ih =>
    rw [List.foldlM_cons] at hrun
    obtain ⟨first, next, last, hperform, hrest, rfl⟩ := Traced.bind_eq_ok.1 hrun
    obtain ⟨current, hfirst, hagrees, hchange⟩ :=
      (step_of_perform hperform).follows (hliteral command List.mem_cons_self) hfollows
    have hnext : (Graphics.mk current graphics.saved).current.Agrees next.style := hagrees
    obtain ⟨final, hlast, hfinal, hfold⟩ :=
      ih (fun other hmem => hliteral other (List.mem_cons_of_mem command hmem)) hrest hnext
    refine ⟨final, ?_, hfinal, ?_⟩
    · rw [Graphics.after_append_of_some hfirst, hlast]
    · rw [List.foldlM_cons, hchange]
      exact hfold

private theorem split_append {α : Type} {first second before rest : List α} {item : α}
    (hsplit : first ++ second = before ++ item :: rest) :
    (∃ middle, first = before ++ item :: middle) ∨
      ∃ middle, before = first ++ middle ∧ second = middle ++ item :: rest := by
  rcases List.append_eq_append_iff.1 hsplit with ⟨middle, rfl, hsecond⟩ | ⟨middle, rfl, hrest⟩
  · exact .inr ⟨middle, rfl, hsecond⟩
  · cases middle with
    | nil => exact .inr ⟨[], by simp only [List.append_nil], hrest.symm⟩
    | cons other others =>
      cases hrest
      exact .inl ⟨others, rfl⟩

private theorem split_right {α : Type} {first second before rest : List α} {item : α}
    (hitem : item ∉ first) (hsplit : first ++ second = before ++ item :: rest) :
    ∃ middle, before = first ++ middle ∧ second = middle ++ item :: rest := by
  rcases split_append hsplit with ⟨middle, rfl⟩ | hright
  · exact absurd (List.mem_append_right before List.mem_cons_self) hitem
  · exact hright

private theorem split_left {α : Type} {first second before rest : List α} {item : α}
    (hitem : item ∉ second) (hsplit : first ++ second = before ++ item :: rest) :
    ∃ middle, first = before ++ item :: middle := by
  rcases split_append hsplit with hleft | ⟨middle, -, rfl⟩
  · exact hleft
  · exact absurd (List.mem_append_right middle List.mem_cons_self) hitem

private theorem not_mem_of_silent {calls : List Call} (hsilent : ∀ call ∈ calls, call.IsSilent)
    (text : String) : .showText text ∉ calls :=
  fun hmem => hsilent _ hmem

theorem Step.shown {graphics : Graphics} (hstep : Step scene pen command trace after)
    {before rest : List Call} {text : String} (htrace : trace = before ++ .showText text :: rest) :
    command.verb = .text ∧ ∃ shown, pen.style.LaidOver scene.stock command shown ∧
      graphics.after before = some ⟨shown, graphics.saved⟩ := by
  have hmem : .showText text ∈ trace := htrace ▸ List.mem_append_right before List.mem_cons_self
  have hverb : command.verb = .text :=
    Decidable.byContradiction fun hverb => hstep.silent hverb _ hmem
  obtain ⟨position?, shown, content, hshown, hcalls⟩ := hstep.of_text hverb
  refine ⟨hverb, shown, Style.laidOver_of_overlay hshown, ?_⟩
  rw [htrace] at hcalls
  obtain ⟨_, hcalls⟩ := split_left (not_mem_of_silent (silent_restore _ _) text) hcalls.symm
  rw [List.append_assoc] at hcalls
  have happlied : .showText text ∉ pen.opening ++ shown.apply := by
    refine not_mem_of_silent (fun call hmem => ?_) text
    rcases List.mem_append.1 hmem with hmem | hmem
    · exact pen.silent_opening call hmem
    · exact silent_apply shown call hmem
  obtain ⟨middle, rfl, hmiddle⟩ := split_right happlied hcalls
  refine graphics.after_applied pen shown fun call hmem => ?_
  have hinert := (Graphics.inert_placing position?).append
    (Graphics.inert_showing content)
  exact hinert call (hmiddle ▸ List.mem_append_left _ hmem)

theorem trace_foldlM_cons {next : Pen} {rest : List Command}
    (hperform : scene.perform pen command = ⟨trace, .ok next⟩) :
    ((command :: rest).foldlM scene.perform pen).trace =
      trace ++ (rest.foldlM scene.perform next).trace := by
  rw [List.foldlM_cons, hperform, Traced.trace_bind_of_ok _ rfl]

/-- Wherever commands show a text, the style of that text is in force: the style that the commands
before it make, with its own settings laid over. -/
theorem shown_of_foldlM {graphics : Graphics} {commands : List Command}
    (hliteral : ∀ command ∈ commands, command.verb ≠ .literal) {before rest : List Call}
    {text : String}
    (htrace : (commands.foldlM scene.perform pen).trace = before ++ .showText text :: rest)
    (hfollows : graphics.current.Agrees pen.style) :
    ∃ done command remaining, commands = done ++ command :: remaining ∧ command.verb = .text ∧
      before ++ [.showText text] <+: ((done ++ [command]).foldlM scene.perform pen).trace ∧
      ∃ drawn reached, done.foldlM scene.perform pen = ⟨drawn, .ok reached⟩ ∧ drawn <+: before ∧
        ∃ shown saved, reached.style.LaidOver scene.stock command shown ∧
          graphics.after before = some ⟨shown, saved⟩ := by
  -- The text is shown by the first command or by a later one, which starts from the pen and the
  -- graphics state that the first one leaves.
  induction commands generalizing pen graphics before with
  | nil =>
    have hnil : [] = before ++ .showText text :: rest := htrace
    simp at hnil
  | cons command others ih =>
    cases houtcome : (scene.perform pen command).outcome with
    | error failure =>
      rw [List.foldlM_cons, Traced.bind_of_error _ houtcome] at htrace
      have hmem : .showText text ∈ (scene.perform pen command).trace :=
        htrace ▸ List.mem_append_right before List.mem_cons_self
      exact absurd hmem (not_mem_of_silent (silent_of_error houtcome) text)
    | ok next =>
      have hperform := Traced.eq_of_outcome houtcome
      have hstep := step_of_perform hperform
      rw [trace_foldlM_cons hperform] at htrace
      rcases split_append htrace with ⟨middle, hhere⟩ | ⟨middle, rfl, hlater⟩
      · obtain ⟨hverb, shown, hshown, hafter⟩ := hstep.shown hhere
        refine ⟨[], command, others, rfl, hverb, ?_, [], pen, rfl, List.nil_prefix, shown, _,
          hshown, hafter⟩
        rw [List.nil_append, trace_foldlM_cons hperform, hhere]
        exact ⟨middle ++ _, by simp only [List.append_assoc, List.cons_append, List.nil_append]; rfl⟩
      · obtain ⟨current, hfirst, hagrees, -⟩ :=
          hstep.follows (hliteral command List.mem_cons_self) hfollows
        have hnext : (Graphics.mk current graphics.saved).current.Agrees next.style := hagrees
        obtain ⟨done, found, remaining, rfl, hverb, hprefix, drawn, reached, hrun, hdrawn, shown,
            saved, hshown, hafter⟩ :=
          ih (fun other hmem => hliteral other (List.mem_cons_of_mem command hmem)) hlater hnext
        refine ⟨command :: done, found, remaining, rfl, hverb, ?_,
          (scene.perform pen command).trace ++ drawn, reached, ?_, ?_, shown, saved, hshown, ?_⟩
        · rw [List.cons_append, trace_foldlM_cons hperform, List.append_assoc]
          exact List.prefix_append_right_inj _ |>.2 hprefix
        · rw [List.foldlM_cons]
          exact Traced.bind_eq_ok.2 ⟨_, next, drawn, hperform, hrun, rfl⟩
        · exact List.prefix_append_right_inj _ |>.2 hdrawn
        · rw [Graphics.after_append_of_some hfirst, hafter]

/-- What a page draws until some of its commands have been carried out. -/
def Scene.upTo (scene : Scene) (style : Style) (done : List Command) : Sketch Pen := do
  record style.entered
  done.foldlM scene.perform { style }

theorem trace_upTo (scene : Scene) (style : Style) (done : List Command) :
    (scene.upTo style done).trace =
      style.entered ++ (done.foldlM scene.perform { style }).trace :=
  Traced.trace_bind_of_ok _ rfl

/-- A page draws what its commands draw, and then perhaps what ends it. -/
theorem trace_page {defaults : Defaults} {style : Style}
    (hstyle : Style.ofDefaults defaults scene.stock.defaultFont = .ok style)
    (commands : List Command) :
    ∃ closing, (∀ call ∈ closing, call.IsSilent) ∧
      (scene.page defaults commands).trace = (scene.upTo style commands).trace ++ closing := by
  have hpage : scene.page defaults commands = scene.run style commands := by
    rw [Scene.page, hstyle, Traced.lift_ok_bind]
  rw [hpage, run_eq, trace_upTo, Traced.trace_bind_of_ok _ rfl]
  cases houtcome : (commands.foldlM scene.perform { style }).outcome with
  | ok pen =>
    refine ⟨pen.closing, pen.silent_closing, ?_⟩
    rw [Traced.trace_bind_of_ok _ houtcome, List.append_assoc]
    rfl
  | error failure =>
    refine ⟨[], fun _ hmem => absurd hmem List.not_mem_nil, ?_⟩
    rw [Traced.bind_of_error _ houtcome, List.append_nil]
    rfl

theorem foldlM_of_upTo {style : Style} {done : List Command}
    (hpen : (scene.upTo style done).outcome = .ok pen) :
    done.foldlM scene.perform { style } =
      ⟨(done.foldlM scene.perform { style }).trace, .ok pen⟩ := by
  rw [Scene.upTo, Traced.outcome_bind_of_ok _ rfl] at hpen
  exact Traced.eq_of_outcome hpen

theorem trace_upTo_initial {style : Style} {done : List Command}
    (hpen : (scene.upTo style done).outcome = .ok pen) (remaining : List Command) :
    (scene.upTo style done).trace <+: (scene.upTo style (done ++ remaining)).trace := by
  have hrun := foldlM_of_upTo hpen
  rw [trace_upTo, trace_upTo, List.foldlM_append, hrun, Traced.trace_bind_of_ok _ rfl,
    ← List.append_assoc]
  exact List.prefix_append _ _

theorem agrees_upTo {style : Style} {done : List Command}
    (hliteral : ∀ command ∈ done, command.verb ≠ .literal) (start : Graphics)
    (hpen : (scene.upTo style done).outcome = .ok pen) :
    ∃ folded graphics, done.foldlM (Style.change scene.stock) style = .ok folded ∧
      start.after (scene.upTo style done).trace = some graphics ∧
      graphics.current.Agrees folded := by
  obtain ⟨entered, hentered, hagrees⟩ := start.after_entered style
  have hfollows : (Graphics.mk entered (start.current :: start.saved)).current.Agrees
      (Pen.mk style false).style := hagrees
  obtain ⟨current, hafter, hcurrent, hfold⟩ :=
    follows_of_foldlM hliteral (foldlM_of_upTo hpen) hfollows
  refine ⟨pen.style, ⟨current, start.current :: start.saved⟩, hfold, ?_, hcurrent⟩
  rw [trace_upTo, Graphics.after_append_of_some hentered, hafter]

theorem shown_upTo {style : Style} {commands : List Command}
    (hliteral : ∀ command ∈ commands, command.verb ≠ .literal) (start : Graphics)
    {before rest : List Call} {text : String}
    (htrace : (scene.upTo style commands).trace = before ++ .showText text :: rest) :
    ∃ done command, done ++ [command] <+: commands ∧ command.verb = .text ∧
      (scene.upTo style done).trace <+: before ∧
      before ++ [.showText text] <+: (scene.upTo style (done ++ [command])).trace ∧
      ∃ folded graphics, done.foldlM (Style.change scene.stock) style = .ok folded ∧
        start.after before = some graphics ∧
        folded.LaidOver scene.stock command graphics.current := by
  obtain ⟨entered, hentered, hagrees⟩ := start.after_entered style
  have hfollows : (Graphics.mk entered (start.current :: start.saved)).current.Agrees
      (Pen.mk style false).style := hagrees
  rw [trace_upTo] at htrace
  obtain ⟨middle, rfl, hmiddle⟩ :=
    split_right (not_mem_of_silent (silent_entered style) text) htrace
  obtain ⟨done, command, remaining, rfl, hverb, hprefix, drawn, reached, hrun, hdrawn, shown, saved,
    hshown, hafter⟩ := shown_of_foldlM hliteral hmiddle hfollows
  have hdone : ∀ other ∈ done, other.verb ≠ .literal :=
    fun other hmem => hliteral other (List.mem_append_left _ hmem)
  obtain ⟨-, -, -, hfold⟩ := follows_of_foldlM hdone hrun hfollows
  refine ⟨done, command, ⟨remaining, by simp⟩, hverb, ?_, ?_, reached.style, ⟨shown, saved⟩, hfold,
    ?_, hshown⟩
  · rw [trace_upTo, hrun]
    exact (List.prefix_append_right_inj _).2 hdrawn
  · rw [trace_upTo, List.append_assoc]
    exact (List.prefix_append_right_inj _).2 hprefix
  · rw [Graphics.after_append_of_some hentered, hafter]

/-- The graphics state follows the style on a page without anything literal, from whatever state the
page is drawn in. After some commands its colours and its line width are those of the style that the
commands of the part of style make of the defaults. Where a text is shown, every attribute is that of
this style with the settings of the one text laid over it. -/
theorem graphics_follow_style {defaults : Defaults} {style : Style} {commands : List Command}
    (hstyle : style.Starts defaults scene.stock.defaultFont)
    (hliteral : ∀ command ∈ commands, command.verb ≠ .literal) (start : Graphics) :
    (∀ done, done <+: commands → ∀ pen, (scene.upTo style done).outcome = .ok pen →
      (scene.upTo style done).trace <+: (scene.page defaults commands).trace ∧
      ∃ folded graphics, done.foldlM (Style.change scene.stock) style = .ok folded ∧
        start.after (scene.upTo style done).trace = some graphics ∧
        graphics.current.Agrees folded) ∧
    ∀ before text rest, (scene.page defaults commands).trace = before ++ .showText text :: rest →
      ∃ done command, done ++ [command] <+: commands ∧ command.verb = .text ∧
        (scene.upTo style done).trace <+: before ∧
        before ++ [.showText text] <+: (scene.upTo style (done ++ [command])).trace ∧
        ∃ folded graphics, done.foldlM (Style.change scene.stock) style = .ok folded ∧
          start.after before = some graphics ∧
          folded.LaidOver scene.stock command graphics.current := by
  obtain ⟨closing, hclosing, hpage⟩ := trace_page (Style.ofDefaults_of_starts hstyle) commands
  refine ⟨?_, ?_⟩
  · rintro done ⟨remaining, rfl⟩ pen hpen
    have hdone : ∀ command ∈ done, command.verb ≠ .literal :=
      fun command hmem => hliteral command (List.mem_append_left remaining hmem)
    refine ⟨?_, agrees_upTo hdone start hpen⟩
    rw [hpage]
    exact (trace_upTo_initial hpen remaining).trans (List.prefix_append _ closing)
  · intro before text rest htrace
    rw [hpage] at htrace
    obtain ⟨_, htrace⟩ := split_left (not_mem_of_silent hclosing text) htrace
    exact shown_upTo hliteral start htrace

private theorem eq_of_concat_prefix {α : Type} {first second : α} {done lead : List α}
    (hconcat : done ++ [first] <+: lead ++ [second]) (hmem : first ∉ lead) :
    done = lead ∧ first = second := by
  rcases List.prefix_concat_iff.1 hconcat with heq | hlead
  · obtain ⟨hdone, hfirst⟩ := List.append_inj' heq rfl
    exact ⟨hdone, List.singleton_inj.1 hfirst⟩
  · exact absurd (hlead.subset (List.mem_append_right done List.mem_cons_self)) hmem

def Call.shown? : Call → Option String
  | .showText text => some text
  | _ => none

theorem exists_of_mem_shown {calls : List Call} {text : String}
    (hmem : text ∈ calls.filterMap Call.shown?) :
    ∃ before rest, calls = before ++ .showText text :: rest := by
  obtain ⟨call, hcall, htext⟩ := List.mem_filterMap.1 hmem
  cases call with
  | showText shown =>
    cases htext
    exact List.append_of_mem hcall
  | _ => cases htext

/-- A text with settings of its own on a page with a line width. -/
theorem graphics_follow_style_of_white_text :
    let settings : SortedMap String Operand := .ofList
      [("ff", ⟨"Courier"⟩), ("ps", ⟨"24"⟩), ("rm", ⟨"1"⟩), ("fc", ⟨"white"⟩)]
    let commands : List Command := [
      { verb := .lineWidth, operands := [⟨"3"⟩] },
      { verb := .text, operands := [⟨"A"⟩], settings }]
    let scene : Scene := {
      frame := ⟨612.0, 792.0⟩
      place := { page := 1, pageCount := 1, pathname := "a.pdf" }
      stock := { fonts := .ofList [("Courier", .standard .courier)] } }
    let style : Style := {
      font := .standard .helvetica
      fontSize := 9.0
      leading := 11.0
      charSpacing := 0.0
      wordSpacing := 0.0
      rise := 0.0
      renderingMode := 0
      horizontalScaling := 100.0
      fill := .ofBytes 0 0 0
      stroke := .ofBytes 0 0 0
      lineWidth := 1.0 }
    style.Starts {} default ∧
      (∃ before rest, (scene.page {} commands).trace = before ++ .showText "A" :: rest) ∧
      (∀ before rest, (scene.page {} commands).trace = before ++ .showText "A" :: rest →
        ∃ graphics, Graphics.after ⟨style, []⟩ before = some graphics ∧
          graphics.current = {
            style with
            font := .standard .courier
            fontSize := 24.0
            renderingMode := 1
            fill := .ofBytes 255 255 255
            lineWidth := 3.0 }) ∧
      ∃ graphics, Graphics.after ⟨style, []⟩ (scene.upTo style commands).trace = some graphics ∧
        graphics.current.Agrees { style with lineWidth := 3.0 } := by
  intro settings commands scene style
  have hstyle : style.Starts {} scene.stock.defaultFont :=
    ⟨rfl, by decide +kernel, by decide +kernel, by decide +kernel, by decide +kernel,
      by decide +kernel, rfl, by decide +kernel, rfl, rfl, by decide +kernel⟩
  have hliteral : ∀ command ∈ commands, command.verb ≠ .literal := by decide
  have hshown : "A" ∈ (scene.page {} commands).trace.filterMap Call.shown? := by decide +kernel
  have hthree : Operand.number ⟨"3"⟩ = .ok (3.0 : Number.Double) :=
    Outcome.eq_ok_of_toOption (by decide +kernel)
  have hfirst : style.change scene.stock { verb := .lineWidth, operands := [⟨"3"⟩] } =
      .ok { style with lineWidth := 3.0 } := by
    have hnumber : Command.number { verb := .lineWidth, operands := [⟨"3"⟩] } 0 =
        .ok (3.0 : Number.Double) :=
      Outcome.bind_eq_ok.2 ⟨⟨"3"⟩, rfl, hthree⟩
    exact Outcome.bind_eq_ok.2 ⟨_, hnumber, rfl⟩
  have hfirstOnly : (commands.take 1).foldlM (Style.change scene.stock) style =
      .ok { style with lineWidth := 3.0 } :=
    Outcome.bind_eq_ok.2 ⟨_, hfirst, rfl⟩
  have hboth : commands.foldlM (Style.change scene.stock) style =
      .ok { style with lineWidth := 3.0 } :=
    Outcome.bind_eq_ok.2 ⟨_, hfirst, rfl⟩
  obtain ⟨hcommands, htexts⟩ := graphics_follow_style hstyle hliteral ⟨style, []⟩
  refine ⟨hstyle, exists_of_mem_shown hshown, fun before rest htrace => ?_, ?_⟩
  · obtain ⟨done, command, horder, hverb, -, -, folded, ⟨current, saved⟩, hfolded, hafter, hlaid⟩ :=
      htexts before "A" rest htrace
    have hnew : command ∉ commands.take 1 := by
      intro hmem
      cases List.mem_singleton.1 hmem
      cases hverb
    have hlead : done ++ [command] <+: commands.take 1 ++
        [{ verb := .text, operands := [⟨"A"⟩], settings }] := horder
    obtain ⟨rfl, rfl⟩ := eq_of_concat_prefix hlead hnew
    cases hfirstOnly.symm.trans hfolded
    have hfont : scene.stock.font "Courier" = .ok current.font := hlaid.font
    have hfontSize : Operand.number ⟨"24"⟩ = .ok current.fontSize := hlaid.fontSize
    have hmode : Operand.integer ⟨"1"⟩ = .ok current.renderingMode := hlaid.renderingMode
    have hfill : Operand.color ⟨"white"⟩ = .ok current.fill := hlaid.fill
    have hlarge : Operand.number ⟨"24"⟩ = .ok (24.0 : Number.Double) :=
      Outcome.eq_ok_of_toOption (by decide +kernel)
    refine ⟨⟨current, saved⟩, hafter, Style.ext ?_ ?_ hlaid.leading hlaid.charSpacing
      hlaid.wordSpacing hlaid.rise ?_ hlaid.horizontalScaling ?_ hlaid.stroke hlaid.lineWidth⟩
    · exact (Except.ok.inj hfont).symm
    · exact Except.ok.inj (hfontSize.symm.trans hlarge)
    · exact (Except.ok.inj hmode).symm
    · exact (Except.ok.inj hfill).symm
  · have hdrawn : ((scene.upTo style commands).outcome.toOption).isSome := by decide +kernel
    obtain ⟨pen, hpen⟩ := Outcome.exists_eq_ok hdrawn
    obtain ⟨-, folded, graphics, hfolded, hafter, hagrees⟩ :=
      hcommands commands List.prefix_rfl pen hpen
    cases hboth.symm.trans hfolded
    exact ⟨graphics, hafter, hagrees⟩

end Following

end Overprint.Drawing
