import Overprint.Proofs.Drawing.Step

/-!
# Colours that are given are colours that are drawn

A page sets the colours that its defaults and its commands give, all of them and no others: a new
colour is announced at once, a text sets its own colours, and what is put back after a text was given
before.
-/

namespace Overprint

open Color Drawing Script

namespace Script.Command

/-- The operands and values of settings that give colours. -/
def colorOperands (command : Command) : List Operand :=
  match command.verb with
  | .fillColor | .strokeColor => command.operands[0]?.toList
  | .color =>
    command.operands[0]?.toList ++ command.operands[command.operands.length - 1]?.toList
  | .text => (command.setting? "fc").toList ++ (command.setting? "sc").toList
  | _ => []

def Gives (command : Command) (color : Rgb) : Prop :=
  ∃ operand ∈ command.colorOperands, operand.color = .ok color

end Script.Command

namespace Drawing

def Call.color? : Call → Option Rgb
  | fillColor color | strokeColor color => some color
  | _ => none

def Sets (calls : List Call) (color : Rgb) : Prop :=
  ∃ call ∈ calls, call.color? = some color

/-- The colour is one of the two that are in force. -/
def Style.Has (style : Style) (color : Rgb) : Prop :=
  color = style.fill ∨ color = style.stroke

def colorTexts (defaults : Defaults) (commands : List Command) : List String :=
  [defaults.fillColor, defaults.strokeColor] ++
    commands.flatMap fun command => command.colorOperands.map Operand.text

variable {scene : Scene} {stock : Stock} {pen after : Pen} {command : Command}
  {commands : List Command} {calls more trace : List Call} {style next shown : Style} {color : Rgb}

theorem sets_append : Sets (calls ++ more) color ↔ Sets calls color ∨ Sets more color := by
  simp only [Sets, List.mem_append, or_and_right, exists_or]

theorem not_sets (hplain : ∀ call ∈ calls, call.color? = none) : ¬ Sets calls color := by
  rintro ⟨call, hmem, hcolor⟩
  rw [hplain call hmem] at hcolor
  cases hcolor

section Plain

/-! Most of what a command draws sets no colour. -/

theorem Call.IsMark.color?_eq_none {call : Call} (hmark : call.IsMark) : call.color? = none := by
  cases call with
  | fillColor | strokeColor => exact hmark.elim
  | _ => rfl

theorem not_sets_opening : ¬ Sets pen.opening color := by
  refine not_sets ?_
  rw [Pen.opening]
  split <;> simp [Call.color?]

theorem not_sets_closing : ¬ Sets pen.closing color := by
  refine not_sets ?_
  rw [Pen.closing]
  split <;> simp [Call.color?]

theorem not_sets_placing {position? : Option (Number.Double × Number.Double)} :
    ¬ Sets (placing position?) color := by
  refine not_sets ?_
  cases position? <;> simp [placing, Call.color?]

theorem not_sets_showing {text : String} : ¬ Sets (showing text) color := by
  refine not_sets fun call hmem => ?_
  rcases mem_showing hmem with rfl | ⟨line, rfl⟩ <;> rfl

end Plain

theorem sets_entered : Sets style.entered color ↔ style.Has color := by
  simp [Sets, Style.entered, Call.color?, Style.Has, eq_comm]

theorem sets_apply : Sets style.apply color ↔ style.Has color := by
  simp [Sets, Style.apply, Call.color?, Style.Has, eq_comm]

theorem has_of_sets_restore (hsets : Sets (style.restore shown) color) : style.Has color := by
  obtain ⟨call, hmem, hcolor⟩ := hsets
  simp only [Style.restore, List.mem_append, List.mem_ite_nil_left, List.mem_singleton] at hmem
  rcases hmem with (⟨-, rfl⟩ | ⟨-, rfl⟩) | ⟨-, rfl⟩ <;> cases hcolor
  · exact .inl rfl
  · exact .inr rfl

section Change

/-! A command of the part of style gives the colours that it announces. -/

/-- Every colour of the operands is read, and the calls set it. -/
def SetsAll (calls : List Call) (operands : List Operand) : Prop :=
  ∀ operand ∈ operands, ∃ color, operand.color = .ok color ∧ Sets calls color

theorem setsAll_toList {operand? : Option Operand}
    (hsets : ∀ operand, operand? = some operand →
      ∃ color, operand.color = .ok color ∧ Sets calls color) : SetsAll calls operand?.toList :=
  fun operand hmem => hsets operand (Option.mem_toList.1 hmem)

theorem SetsAll.append {operands others : List Operand} (hfirst : SetsAll calls operands)
    (hsecond : SetsAll calls others) : SetsAll calls (operands ++ others) :=
  fun operand hmem => (List.mem_append.1 hmem).elim (hfirst operand) (hsecond operand)

theorem colorAt_eq_ok {index : Nat} : colorAt command index = .ok color ↔
    ∃ operand, command.operands[index]? = some operand ∧ operand.color = .ok color := by
  rw [colorAt, Outcome.bind_eq_ok]
  simp only [Command.operand]
  cases command.operands[index]? <;> simp

theorem setsAll_of_colorAt {index : Nat} (hcolor : colorAt command index = .ok color)
    (hsets : Sets calls color) : SetsAll calls command.operands[index]?.toList := by
  obtain ⟨operand, hoperand, hread⟩ := colorAt_eq_ok.1 hcolor
  refine setsAll_toList fun other hother => ⟨color, ?_, hsets⟩
  rw [hoperand] at hother
  cases hother
  exact hread

theorem gives_of_colorAt {index : Nat} (hcolor : colorAt command index = .ok color)
    (hsubset : command.operands[index]?.toList ⊆ command.colorOperands) : command.Gives color := by
  obtain ⟨operand, hoperand, hread⟩ := colorAt_eq_ok.1 hcolor
  exact ⟨operand, hsubset (Option.mem_toList.2 hoperand), hread⟩

theorem change_setsAll (hrole : command.verb.role = .style)
    (hchange : style.change stock command = .ok next) :
    SetsAll (next.announced command.verb) command.colorOperands := by
  obtain ⟨verb, operands, settings⟩ := command
  cases verb with
  | fillColor =>
    obtain ⟨fill, hfill, hchange⟩ := Outcome.bind_eq_ok.1 hchange
    cases hchange
    exact setsAll_of_colorAt hfill ⟨_, List.mem_cons_self, rfl⟩
  | strokeColor =>
    obtain ⟨stroke, hstroke, hchange⟩ := Outcome.bind_eq_ok.1 hchange
    cases hchange
    exact setsAll_of_colorAt hstroke ⟨_, List.mem_cons_self, rfl⟩
  | color =>
    obtain ⟨fill, hfill, hchange⟩ := Outcome.bind_eq_ok.1 hchange
    obtain ⟨stroke, hstroke, hchange⟩ := Outcome.bind_eq_ok.1 hchange
    cases hchange
    refine .append (setsAll_of_colorAt hfill ⟨_, List.mem_cons_self, rfl⟩) ?_
    exact setsAll_of_colorAt hstroke ⟨_, List.mem_cons_of_mem _ List.mem_cons_self, rfl⟩
  | text => cases hrole
  | _ => exact nofun

theorem has_of_change (hchange : style.change stock command = .ok next) (hhas : next.Has color) :
    style.Has color ∨ command.Gives color := by
  obtain ⟨verb, operands, settings⟩ := command
  cases verb with
  | fillColor =>
    obtain ⟨fill, hfill, hchange⟩ := Outcome.bind_eq_ok.1 hchange
    cases hchange
    rcases hhas with rfl | hstroke
    · exact .inr (gives_of_colorAt hfill (List.Subset.refl _))
    · exact .inl (.inr hstroke)
  | strokeColor =>
    obtain ⟨stroke, hstroke, hchange⟩ := Outcome.bind_eq_ok.1 hchange
    cases hchange
    rcases hhas with hfill | rfl
    · exact .inl (.inl hfill)
    · exact .inr (gives_of_colorAt hstroke (List.Subset.refl _))
  | color =>
    obtain ⟨fill, hfill, hchange⟩ := Outcome.bind_eq_ok.1 hchange
    obtain ⟨stroke, hstroke, hchange⟩ := Outcome.bind_eq_ok.1 hchange
    cases hchange
    rcases hhas with rfl | rfl
    · exact .inr (gives_of_colorAt hfill (List.subset_append_left _ _))
    · exact .inr (gives_of_colorAt hstroke (List.subset_append_right _ _))
  | fontSize | leading | charSpacing | wordSpacing | textRise | textRenderingMode
  | horizontalScaling | lineWidth =>
    obtain ⟨_, -, hchange⟩ := Outcome.bind_eq_ok.1 hchange
    cases hchange
    exact .inl hhas
  | fontFile =>
    obtain ⟨_, -, hchange⟩ := Outcome.bind_eq_ok.1 hchange
    obtain ⟨_, -, hchange⟩ := Outcome.bind_eq_ok.1 hchange
    cases hchange
    exact .inl hhas
  | _ =>
    cases hchange
    exact .inl hhas

theorem has_of_sets_announced {verb : Verb} (hsets : Sets (style.announced verb) color) :
    style.Has color := by
  obtain ⟨call, hmem, hcolor⟩ := hsets
  cases verb with
  | fillColor =>
    cases List.mem_singleton.1 hmem
    cases hcolor
    exact .inl rfl
  | strokeColor =>
    cases List.mem_singleton.1 hmem
    cases hcolor
    exact .inr rfl
  | color =>
    rcases List.mem_cons.1 hmem with rfl | hmem
    · cases hcolor
      exact .inl rfl
    · cases List.mem_singleton.1 hmem
      cases hcolor
      exact .inr rfl
  | lineWidth =>
    cases List.mem_singleton.1 hmem
    cases hcolor
  | _ => cases hmem

end Change

section Overlay

/-! A text is drawn in the colours of its settings, and in those in force where it has none. -/

theorem setsAll_of_sets {key : String} {before : Rgb}
    (hcolor : command.Sets key Operand.color before color) (hsets : Sets calls color) :
    SetsAll calls (command.setting? key).toList := by
  refine setsAll_toList fun operand hoperand => ⟨color, ?_, hsets⟩
  rw [Command.setting?] at hoperand
  rw [Command.Sets, hoperand] at hcolor
  exact hcolor

theorem eq_or_gives_of_sets {key : String} {before : Rgb}
    (hcolor : command.Sets key Operand.color before color)
    (hsubset : (command.setting? key).toList ⊆ command.colorOperands) :
    color = before ∨ command.Gives color := by
  rw [Command.Sets] at hcolor
  split at hcolor
  next operand hoperand =>
    exact .inr ⟨operand, hsubset (Option.mem_toList.2 hoperand), hcolor⟩
  next => exact .inl hcolor

theorem overlay_setsAll (hverb : command.verb = .text)
    (hoverlay : style.overlay stock command = .ok shown) :
    SetsAll shown.apply command.colorOperands := by
  have hlaid := Style.laidOver_of_overlay hoverlay
  rw [Command.colorOperands, hverb]
  exact .append (setsAll_of_sets hlaid.fill (sets_apply.2 (.inl rfl)))
    (setsAll_of_sets hlaid.stroke (sets_apply.2 (.inr rfl)))

theorem has_of_overlay (hverb : command.verb = .text)
    (hoverlay : style.overlay stock command = .ok shown) (hhas : shown.Has color) :
    style.Has color ∨ command.Gives color := by
  have hlaid := Style.laidOver_of_overlay hoverlay
  have hoperands : command.colorOperands =
      (command.setting? "fc").toList ++ (command.setting? "sc").toList := by
    rw [Command.colorOperands, hverb]
  rcases hhas with rfl | rfl
  · exact (eq_or_gives_of_sets hlaid.fill (hoperands ▸ List.subset_append_left _ _)).imp_left .inl
  · exact (eq_or_gives_of_sets hlaid.stroke (hoperands ▸ List.subset_append_right _ _)).imp_left
      .inr

end Overlay

theorem colorOperands_eq_nil (hstyle : command.verb.role ≠ .style)
    (htext : command.verb.role ≠ .text) : command.colorOperands = [] := by
  obtain ⟨verb, operands, settings⟩ := command
  cases verb with
  | fillColor | strokeColor | color => exact absurd rfl hstyle
  | text => exact absurd rfl htext
  | _ => rfl

theorem SetsAll.of_role (hrole : command.verb.role ≠ .style) (htext : command.verb.role ≠ .text) :
    SetsAll calls command.colorOperands := by
  rw [colorOperands_eq_nil hrole htext]
  exact nofun

theorem SetsAll.mono {operands : List Operand} (hall : SetsAll calls operands)
    (hsubset : calls ⊆ more) : SetsAll more operands := by
  intro operand hmem
  obtain ⟨color, hread, call, hcall, hcolor⟩ := hall operand hmem
  exact ⟨color, hread, call, hsubset hcall, hcolor⟩

namespace Step

variable (hstep : Step scene pen command trace after)

include hstep

theorem setsAll : SetsAll trace command.colorOperands := by
  cases hstep with
  | style hrole hchange => exact change_setsAll hrole hchange
  | mark hrole | position hrole => exact .of_role (by simp [hrole]) (by simp [hrole])
  | literal hverb hcontent => exact .of_role (by simp [hverb, Verb.role]) (by simp [hverb, Verb.role])
  | @text position? shown operand hverb hposition hshown hoperand =>
    refine (overlay_setsAll hverb hshown).mono fun call hmem => ?_
    simp only [List.mem_append, hmem, or_true, true_or]

/-- What is set or stays in force was in force before or is given. -/
theorem has_or_gives (hcolor : Sets trace color ∨ after.style.Has color) :
    pen.style.Has color ∨ command.Gives color := by
  cases hstep with
  | @style style hrole hchange =>
    exact has_of_change hchange (hcolor.elim has_of_sets_announced id)
  | mark hrole hmarks =>
    exact .inl (hcolor.resolve_left (not_sets fun call hmem => (hmarks call hmem).color?_eq_none))
  | position hrole =>
    refine .inl (hcolor.resolve_left ?_)
    rw [sets_append, not_or]
    exact ⟨not_sets_opening, not_sets fun call hmem => List.mem_singleton.1 hmem ▸ rfl⟩
  | @text position? shown operand hverb hposition hshown hoperand =>
    simp only [sets_append, not_sets_opening, not_sets_placing, not_sets_showing, false_or,
      or_false] at hcolor
    rcases hcolor with (happlied | hrestored) | hkept
    · exact has_of_overlay hverb hshown (sets_apply.1 happlied)
    · exact .inl (has_of_sets_restore hrestored)
    · exact .inl hkept
  | literal hverb hcontent =>
    exact .inl (hcolor.resolve_left (not_sets fun call hmem => List.mem_singleton.1 hmem ▸ rfl))

end Step

theorem setsAll_of_foldlM (hfold : commands.foldlM scene.perform pen = ⟨trace, .ok after⟩) :
    SetsAll trace (commands.flatMap Command.colorOperands) := by
  induction commands generalizing pen trace with
  | nil => exact nofun
  | cons command rest ih =>
    rw [List.foldlM_cons] at hfold
    obtain ⟨first, next, last, hperform, hrest, rfl⟩ := Traced.bind_eq_ok.1 hfold
    rw [List.flatMap_cons]
    refine .append ?_ ((ih hrest).mono (List.subset_append_right _ _))
    exact (step_of_perform hperform).setsAll.mono (List.subset_append_left _ _)

/-- What commands set was in force before or is given by one of them. -/
theorem has_or_gives_of_foldlM (hfold : commands.foldlM scene.perform pen = ⟨trace, .ok after⟩)
    (hsets : Sets trace color) :
    pen.style.Has color ∨ ∃ command ∈ commands, command.Gives color := by
  induction commands generalizing pen trace with
  | nil =>
    cases hfold
    obtain ⟨call, hmem, -⟩ := hsets
    cases hmem
  | cons command rest ih =>
    rw [List.foldlM_cons] at hfold
    obtain ⟨first, next, last, hperform, hrest, rfl⟩ := Traced.bind_eq_ok.1 hfold
    have hstep := step_of_perform hperform
    have hthen : Sets first color ∨ next.style.Has color ∨ ∃ command ∈ rest, command.Gives color :=
      (sets_append.1 hsets).imp_right (ih hrest)
    rw [← or_assoc] at hthen
    rcases hthen with hfirst | ⟨later, hmem, hgives⟩
    · exact (hstep.has_or_gives hfirst).imp_right fun hgives => ⟨command, List.mem_cons_self, hgives⟩
    · exact .inr ⟨later, List.mem_cons_of_mem _ hmem, hgives⟩

section Page

variable {defaults : Defaults}

theorem ofDefaults_colors {font : Font} (hstyle : Style.ofDefaults defaults font = .ok style) :
    Rgb.read defaults.fillColor = .ok style.fill ∧
      Rgb.read defaults.strokeColor = .ok style.stroke := by
  obtain ⟨fill, hfill, hstyle⟩ := Outcome.bind_eq_ok.1 hstyle
  obtain ⟨stroke, hstroke, hstyle⟩ := Outcome.bind_eq_ok.1 hstyle
  cases hstyle
  exact ⟨hfill, hstroke⟩

theorem setsAll_page (hpage : scene.page defaults commands = ⟨trace, .ok ()⟩) :
    SetsAll trace (commands.flatMap Command.colorOperands) := by
  obtain ⟨style, drawn, pen, -, hfold, rfl⟩ := page_eq_ok hpage
  refine (setsAll_of_foldlM hfold).mono fun call hmem => ?_
  exact List.mem_append_right _ (List.mem_append_left _ hmem)

/-- On a page that succeeds every colour that is given is read and set. -/
theorem exists_color_of_page (hpage : scene.page defaults commands = ⟨trace, .ok ()⟩)
    {text : String} (htext : text ∈ colorTexts defaults commands) :
    ∃ color, Rgb.read text = .ok color ∧ Sets trace color := by
  have hgiven := setsAll_page hpage
  obtain ⟨style, drawn, pen, hstyle, -, rfl⟩ := page_eq_ok hpage
  obtain ⟨hfill, hstroke⟩ := ofDefaults_colors hstyle
  have hstart {color : Rgb} (hhas : style.Has color) :
      Sets (style.entered ++ (drawn ++ pen.closing)) color :=
    sets_append.2 (.inl (sets_entered.2 hhas))
  simp only [colorTexts, List.cons_append, List.nil_append, List.mem_cons] at htext
  rcases htext with rfl | rfl | hmem
  · exact ⟨style.fill, hfill, hstart (.inl rfl)⟩
  · exact ⟨style.stroke, hstroke, hstart (.inr rfl)⟩
  · obtain ⟨command, hcommand, hmem⟩ := List.mem_flatMap.1 hmem
    obtain ⟨operand, hoperand, rfl⟩ := List.mem_map.1 hmem
    exact hgiven operand (List.mem_flatMap.2 ⟨command, hcommand, hoperand⟩)

theorem sets_page_iff (hpage : scene.page defaults commands = ⟨trace, .ok ()⟩) :
    Sets trace color ↔ ∃ text ∈ colorTexts defaults commands, Rgb.read text = .ok color := by
  constructor
  · intro hsets
    obtain ⟨style, drawn, pen, hstyle, hfold, rfl⟩ := page_eq_ok hpage
    obtain ⟨hfill, hstroke⟩ := ofDefaults_colors hstyle
    have horigin : style.Has color ∨ ∃ command ∈ commands, command.Gives color := by
      rw [sets_append, sets_append, sets_entered] at hsets
      rcases hsets with hhas | hdrawn | hclosing
      · exact .inl hhas
      · exact has_or_gives_of_foldlM hfold hdrawn
      · exact absurd hclosing not_sets_closing
    rcases horigin with (rfl | rfl) | ⟨command, hcommand, operand, hoperand, hread⟩
    · exact ⟨defaults.fillColor, List.mem_cons_self, hfill⟩
    · exact ⟨defaults.strokeColor, List.mem_cons_of_mem _ List.mem_cons_self, hstroke⟩
    · refine ⟨operand.text, List.mem_append_right _ ?_, hread⟩
      exact List.mem_flatMap.2 ⟨command, hcommand, List.mem_map_of_mem hoperand⟩
  · rintro ⟨text, htext, hread⟩
    obtain ⟨other, hother, hsets⟩ := exists_color_of_page hpage htext
    rw [hread] at hother
    cases hother
    exact hsets

end Page

end Drawing

end Overprint
