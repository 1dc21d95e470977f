import Overprint.Proofs.Drawing.Step
import Overprint.Proofs.Pdf.Nesting
import Overprint.Proofs.Stamping

/-!
# The text object of a page

Everything a page draws is between `q` and `Q`, and all of its text is in one text object, which the
first command about text opens and the end of the page closes. `TextObject` says what may be recorded
while no text object is open, while one is, and when one is opened. Every command keeps to it, so
every page does.
-/

namespace Overprint

open Drawing Pdf Script

namespace Pdf

def textBrackets : List String :=
  ["BT", "ET"]

def textOperators : List String :=
  ["Tf", "TL", "Tc", "Tw", "Ts", "Tr", "Tz", "Tm", "Tj", "T*"]

/-- Operations that restore what they save, without some operators. -/
structure Clean (excluded operators : List String) : Prop where
  balanced : Balanced operators
  absent : ∀ operator ∈ operators, operator ∉ excluded

namespace Clean

variable {excluded first second operators : List String}

theorem nil : Clean excluded [] :=
  ⟨.nil, fun _ hmem => by cases hmem⟩

theorem single {operator : String} (hlevel : level operator = 0)
    (habsent : excluded.contains operator = false) : Clean excluded [operator] := by
  refine ⟨.single hlevel, fun other hmem hexcluded => ?_⟩
  rw [List.mem_singleton.1 hmem, ← List.contains_iff_mem, habsent] at hexcluded
  cases hexcluded

theorem append (hfirst : Clean excluded first) (hsecond : Clean excluded second) :
    Clean excluded (first ++ second) := by
  refine ⟨hfirst.balanced.append hsecond.balanced, fun operator hmem => ?_⟩
  rcases List.mem_append.1 hmem with hmem | hmem
  · exact hfirst.absent operator hmem
  · exact hsecond.absent operator hmem

theorem flatMap {α : Type} {items : List α} {operators : α → List String}
    (hitems : ∀ item ∈ items, Clean excluded (operators item)) :
    Clean excluded (items.flatMap operators) := by
  induction items with
  | nil => exact nil
  | cons item rest ih =>
    rw [List.flatMap_cons]
    refine (hitems item List.mem_cons_self).append ?_
    exact ih fun other hmem => hitems other (List.mem_cons_of_mem item hmem)

theorem mono {fewer : List String} (hclean : Clean excluded operators) (hsub : fewer ⊆ excluded) :
    Clean fewer operators :=
  ⟨hclean.balanced, fun operator hmem hfewer => hclean.absent operator hmem (hsub hfewer)⟩

end Clean

/-- What operations may be recorded outside a text object, inside one, and when one is opened. The
truth values say whether a text object is open before and after them. -/
inductive TextObject : Bool → List String → Bool → Prop
  | outside {operators : List String} (hclean : Clean (textBrackets ++ textOperators) operators) :
      TextObject false operators false
  | inside {operators : List String} (hclean : Clean textBrackets operators) :
      TextObject true operators true
  | opened {before inside : List String} (hbefore : Clean (textBrackets ++ textOperators) before)
      (hinside : Clean textBrackets inside) : TextObject false (before ++ "BT" :: inside) true

namespace TextObject

variable {open₁ open₂ open₃ : Bool} {first second operators : List String}

theorem anywhere (hclean : Clean (textBrackets ++ textOperators) operators) (isOpen : Bool) :
    TextObject isOpen operators isOpen := by
  cases isOpen with
  | false => exact .outside hclean
  | true => exact .inside (hclean.mono (List.subset_append_left _ _))

theorem append (hfirst : TextObject open₁ first open₂) (hsecond : TextObject open₂ second open₃) :
    TextObject open₁ (first ++ second) open₃ := by
  cases hfirst with
  | outside hfirst =>
    cases hsecond with
    | outside hsecond => exact .outside (hfirst.append hsecond)
    | opened hbefore hinside =>
      rw [← List.append_assoc]
      exact .opened (hfirst.append hbefore) hinside
  | inside hfirst =>
    cases hsecond with
    | inside hsecond => exact .inside (hfirst.append hsecond)
  | opened hbefore hinside =>
    cases hsecond with
    | inside hsecond =>
      rw [List.append_assoc, List.cons_append]
      exact .opened hbefore (hinside.append hsecond)

theorem balanced (hobject : TextObject open₁ operators open₂) : Balanced operators := by
  cases hobject with
  | outside hclean | inside hclean => exact hclean.balanced
  | opened hbefore hinside =>
    have hopening : Balanced ["BT"] := .single rfl
    exact hbefore.balanced.append (hopening.append hinside.balanced)

/-- A page on which a text object is opened has that one only, and closes it last. -/
theorem exists_once (hobject : TextObject false operators true) : ∃ before inside,
    "q" :: operators ++ ["ET", "Q"] = before ++ "BT" :: inside ++ ["ET", "Q"] ∧
    ("q" :: operators ++ ["ET", "Q"]).count "BT" = 1 ∧
    ("q" :: operators ++ ["ET", "Q"]).count "ET" = 1 ∧
    depth before = 1 ∧ depth (before ++ "BT" :: inside) = 1 ∧
    ∀ operator ∈ textOperators, operator ∉ before := by
  cases hobject with
  | @opened before inside hbefore hinside =>
    have hcount (operator : String) (hmem : operator ∈ textBrackets) :
        before.count operator = 0 ∧ inside.count operator = 0 :=
      ⟨List.count_eq_zero.2 fun h => hbefore.absent operator h (List.mem_append_left _ hmem),
        List.count_eq_zero.2 fun h => hinside.absent operator h hmem⟩
    have hbegin := hcount "BT" (by decide)
    have hend := hcount "ET" (by decide)
    have hlevel : level "q" = 1 ∧ level "BT" = 0 := ⟨rfl, rfl⟩
    refine ⟨"q" :: before, inside, rfl, ?_, ?_, ?_, ?_, ?_⟩
    · simp [hbegin]
    · simp [hend]
    · rw [depth, hbefore.balanced.closed, hlevel.1, Int.add_zero]
    · rw [List.cons_append, depth, depth_append, depth, hbefore.balanced.closed,
        hinside.balanced.closed, hlevel.1, hlevel.2]
      rfl
    · intro operator hmem hfound
      rcases List.mem_cons.1 hfound with rfl | hfound
      · exact absurd hmem (by decide)
      · exact hbefore.absent operator hfound (List.mem_append_right _ hmem)

/-- A page on which none is opened has nothing to do with text. -/
theorem absent (hobject : TextObject false operators false) :
    ∀ operator ∈ textBrackets ++ textOperators, operator ∉ "q" :: operators ++ ["Q"] := by
  cases hobject with
  | outside hclean =>
    intro operator hmem hfound
    rcases List.mem_append.1 hfound with hfound | hfound
    · rcases List.mem_cons.1 hfound with rfl | hfound
      · exact absurd hmem (by decide)
      · exact hclean.absent operator hfound hmem
    · cases List.mem_singleton.1 hfound
      exact absurd hmem (by decide)

end TextObject

end Pdf

def Script.Verb.opensText : Verb → Bool
  | .text | .textMatrix | .textPos => true
  | _ => false

theorem Script.Verb.opensText_eq (verb : Verb) :
    verb.opensText = decide (verb.role = .text ∨ verb.role = .position) := by
  cases verb <;> rfl

/-- The operators of the operations that a call is recorded as. -/
def Drawing.Call.operators : Call → List String
  | .font .. => ["Tf"]
  | .showText _ => ["Tj"]
  | .picture .. => ["q", "cm", "Do", "Q"]
  | call => ((plainOperation? call).map (·.operator)).toList

namespace Pdf.Canvas

def operators (canvas : Canvas) : List String :=
  canvas.stamp.operations.map (·.operator)

variable {canvas after : Canvas}

theorem operators_record {call : Call} (hrecord : canvas.record call = .ok after) :
    after.operators = canvas.operators ++ call.operators := by
  cases call with
  | showText text =>
    rw [record, showText] at hrecord
    split at hrecord
    · cases hrecord
    · cases hrecord
      exact List.map_append
  | _ =>
    cases hrecord
    exact List.map_append

theorem operators_foldlM_record {calls : List Call}
    (hrecord : calls.foldlM record canvas = .ok after) :
    after.operators = canvas.operators ++ calls.flatMap Call.operators := by
  induction calls generalizing canvas with
  | nil =>
    cases hrecord
    exact (List.append_nil _).symm
  | cons call rest ih =>
    rw [List.foldlM_cons] at hrecord
    obtain ⟨next, hnext, hrecord⟩ := Outcome.bind_eq_ok.1 hrecord
    rw [ih hrecord, operators_record hnext, List.flatMap_cons, List.append_assoc]

end Pdf.Canvas

namespace Drawing

open Call

section Calls

variable {call : Call}

/-- A mark has nothing to do with text. A picture saves the graphics state and restores it. -/
theorem Call.IsMark.clean (hmark : call.IsMark) :
    Clean (textBrackets ++ textOperators) call.operators := by
  cases call with
  | path segment => cases segment <;> exact .single rfl rfl
  | paint manner => cases manner <;> exact .single rfl rfl
  | lineCap | lineJoin | miterLimit | dash => exact .single rfl rfl
  | picture shown box =>
    have hinner : Balanced ["cm", "Do"] :=
      (Balanced.single rfl).append (.single rfl)
    exact ⟨hinner.bracket, show ∀ operator ∈ ["q", "cm", "Do", "Q"], _ by decide⟩
  | _ => exact hmark.elim

/-- Colours and line widths are set in text objects and elsewhere. -/
def Call.SetsGraphics : Call → Prop
  | .fillColor _ | .strokeColor _ | .lineWidth _ => True
  | _ => False

theorem Call.SetsGraphics.clean (hsets : call.SetsGraphics) :
    Clean (textBrackets ++ textOperators) call.operators := by
  cases call with
  | fillColor | strokeColor | lineWidth => exact .single rfl rfl
  | _ => exact hsets.elim

theorem setsGraphics_announced (style : Style) (verb : Verb) :
    ∀ call ∈ style.announced verb, call.SetsGraphics := by
  cases verb <;> simp [Style.announced, Call.SetsGraphics]

theorem setsGraphics_restore (style shown : Style) :
    ∀ call ∈ style.restore shown, call.SetsGraphics := by
  intro call hmem
  simp only [Style.restore, List.mem_append, List.mem_ite_nil_left, List.mem_singleton] at hmem
  rcases hmem with (⟨-, rfl⟩ | ⟨-, rfl⟩) | ⟨-, rfl⟩ <;> trivial

theorem clean_showing (text : String) :
    Clean textBrackets ((showing text).flatMap operators) := by
  refine .flatMap fun call hmem => ?_
  rcases mem_showing hmem with rfl | ⟨line, rfl⟩ <;> exact .single rfl rfl

theorem clean_placing (position? : Option (Number.Double × Number.Double)) :
    Clean textBrackets ((placing position?).flatMap operators) := by
  cases position? with
  | none => exact .nil
  | some position => exact .single rfl rfl

theorem clean_apply (style : Style) : Clean textBrackets (style.apply.flatMap operators) := by
  refine .flatMap fun call hmem => ?_
  simp only [Style.apply, List.mem_cons, List.not_mem_nil, or_false] at hmem
  rcases hmem with rfl | rfl | rfl | rfl | rfl | rfl | rfl | rfl | rfl | rfl <;>
    exact .single rfl rfl

theorem Pen.textObject_opening (pen : Pen) :
    TextObject pen.inText (pen.opening.flatMap operators) true := by
  rw [opening]
  cases pen.inText with
  | false => exact .opened .nil .nil
  | true => exact .inside .nil

end Calls

variable {scene : Scene} {pen after : Pen} {command : Command} {trace : List Call}

/-- A text object is opened by the first command that needs one, and stays open. -/
theorem Step.textObject (hstep : Step scene pen command trace after)
    (hliteral : command.verb ≠ .literal) :
    TextObject pen.inText (trace.flatMap operators) after.inText ∧
      after.inText = (pen.inText || command.verb.opensText) := by
  have hopens := Verb.opensText_eq command.verb
  cases hstep with
  | @style style hrole hchange =>
    have hsets := setsGraphics_announced style command.verb
    refine ⟨.anywhere (.flatMap fun call hmem => (hsets call hmem).clean) _, ?_⟩
    simp [hopens, hrole]
  | mark hrole hmarks hpictures =>
    refine ⟨.anywhere (.flatMap fun call hmem => (hmarks call hmem).clean) _, ?_⟩
    simp [hopens, hrole]
  | position hrole =>
    rw [List.flatMap_append]
    refine ⟨pen.textObject_opening.append (.inside ?_), ?_⟩
    · exact .single rfl rfl
    · simp [hopens, hrole]
  | @text position? shown operand hverb hposition hshown hoperand =>
    have hrestore := setsGraphics_restore pen.style shown
    simp only [List.flatMap_append]
    refine ⟨(((pen.textObject_opening.append (.inside (clean_apply shown))).append
      (.inside (clean_placing position?))).append (.inside (clean_showing _))).append
        (.anywhere (.flatMap fun call hmem => (hrestore call hmem).clean) true), ?_⟩
    simp [hopens, Verb.role_eq_text.2 hverb]
  | literal hverb hcontent => exact absurd hverb hliteral

/-- Commands that are carried out one after the other open at most one text object. -/
theorem textObject_foldlM {commands : List Command}
    (hliteral : ∀ command ∈ commands, command.verb ≠ .literal)
    (hrun : commands.foldlM scene.perform pen = ⟨trace, .ok after⟩) :
    TextObject pen.inText (trace.flatMap operators) after.inText ∧
      after.inText = (pen.inText || commands.any (·.verb.opensText)) := by
  induction commands generalizing pen trace with
  | nil =>
    cases hrun
    exact ⟨.anywhere .nil _, (Bool.or_false _).symm⟩
  | cons command rest ih =>
    rw [List.foldlM_cons] at hrun
    obtain ⟨first, next, last, hnext, hrest, rfl⟩ := Traced.bind_eq_ok.1 hrun
    obtain ⟨hfirst, hopen⟩ :=
      (step_of_perform hnext).textObject (hliteral command List.mem_cons_self)
    obtain ⟨hlast, hafter⟩ :=
      ih (fun other hmem => hliteral other (List.mem_cons_of_mem command hmem)) hrest
    rw [List.flatMap_append]
    refine ⟨hfirst.append hlast, ?_⟩
    rw [hafter, hopen, List.any_cons, Bool.or_assoc]

theorem clean_entered (style : Style) : ∃ rest, style.entered.flatMap operators = "q" :: rest ∧
    Clean (textBrackets ++ textOperators) rest := by
  let rest : List Call := [.fillColor style.fill, .strokeColor style.stroke, .lineWidth style.lineWidth]
  have hrest : ∀ call ∈ rest, call.SetsGraphics := by simp [rest, Call.SetsGraphics]
  exact ⟨rest.flatMap operators, rfl, .flatMap fun call hmem => (hrest call hmem).clean⟩

/-- What a page records is in brackets and keeps to the rules for text objects. -/
theorem textObject_run {style : Style} {commands : List Command} {press : Press} {canvas : Canvas}
    (hliteral : ∀ command ∈ commands, command.verb ≠ .literal)
    (hrecord : recordAll press (scene.run style commands) = .ok canvas) :
    ∃ inner, TextObject false inner (commands.any (·.verb.opensText)) ∧
      canvas.operators =
        "q" :: inner ++ if commands.any (·.verb.opensText) then ["ET", "Q"] else ["Q"] := by
  obtain ⟨hcanvas, houtcome⟩ := recordAll_eq_ok hrecord
  obtain ⟨trace, hrun⟩ : ∃ trace, scene.run style commands = ⟨trace, .ok ()⟩ :=
    ⟨_, by rw [← houtcome]⟩
  rw [hrun] at hcanvas
  obtain ⟨middle, after, hmiddle, rfl⟩ := run_eq_ok hrun
  obtain ⟨hmiddle, hafter⟩ := textObject_foldlM hliteral hmiddle
  obtain ⟨rest, hentered, hrest⟩ := clean_entered style
  rw [Bool.false_or] at hafter
  rw [hafter] at hmiddle
  refine ⟨rest ++ middle.flatMap operators, (TextObject.outside hrest).append hmiddle, ?_⟩
  have hclosing : after.closing.flatMap operators =
      if commands.any (·.verb.opensText) then ["ET", "Q"] else ["Q"] := by
    rw [Pen.closing, hafter]
    split <;> rfl
  rw [Canvas.operators_foldlM_record hcanvas]
  simp only [List.flatMap_append, hentered, hclosing]
  simp [Canvas.operators]

end Drawing

/-- A page without literal content leaves every graphics state as it found it, whatever its operations
do to the state in force: it is in brackets, and goes back beyond no state of before. If some command
needs a text object, there is one, at the lowest depth, closed just before the end, and all operations
on text are in it. Otherwise there is none, and there are no operations on text. -/
theorem recordAll_run_leaves_state {scene : Scene} {style : Style} {commands : List Command}
    {press : Press} {canvas : Canvas} (hliteral : ∀ command ∈ commands, command.verb ≠ .literal)
    (hrecord : recordAll press (scene.run style commands) = .ok canvas) :
    (∃ inner, canvas.operators = "q" :: inner ++ ["Q"]) ∧
    (∀ first second, canvas.operators = first ++ second → first ≠ [] → second ≠ [] →
      1 ≤ depth first) ∧
    depth canvas.operators = 0 ∧
    (∀ (σ : Type) (effect : Operation → σ → σ) (state : σ) (saved : List σ),
      interpret effect canvas.stamp.operations state saved = some (state, saved)) ∧
    ((∃ command ∈ commands, command.verb.opensText) → ∃ before inside,
      canvas.operators = before ++ "BT" :: inside ++ ["ET", "Q"] ∧
      canvas.operators.count "BT" = 1 ∧ canvas.operators.count "ET" = 1 ∧
      depth before = 1 ∧ depth (before ++ "BT" :: inside) = 1 ∧
      ∀ operator ∈ textOperators, operator ∉ before) ∧
    ((∀ command ∈ commands, ¬ command.verb.opensText) →
      ∀ operator ∈ textBrackets ++ textOperators, operator ∉ canvas.operators) := by
  obtain ⟨inner, hobject, hoperators⟩ := textObject_run hliteral hrecord
  obtain ⟨bracketed, hbalanced, hbracket⟩ : ∃ bracketed, Balanced bracketed ∧
      canvas.operators = "q" :: bracketed ++ ["Q"] := by
    split at hoperators
    · have hending : Balanced ["ET"] := .single rfl
      refine ⟨inner ++ ["ET"], hobject.balanced.append hending, ?_⟩
      rw [hoperators, List.append_cons, List.cons_append]
    · exact ⟨inner, hobject.balanced, hoperators⟩
  refine ⟨⟨bracketed, hbracket⟩, fun first second hsplit hfirst hsecond => ?_, ?_,
    fun σ effect state saved => interpret_bracket effect hbalanced hbracket state saved,
    fun hopens => ?_, fun hopens => ?_⟩
  · exact hbalanced.one_le_depth (hbracket.symm.trans hsplit) hfirst hsecond
  · rw [hbracket]
    exact hbalanced.depth_bracket
  · rw [List.any_eq_true.2 hopens] at hobject hoperators
    rw [hoperators]
    exact hobject.exists_once
  · rw [List.any_eq_false.2 hopens] at hobject hoperators
    rw [hoperators]
    exact hobject.absent

/-- A line, a picture and two texts. -/
theorem recordAll_run_leaves_state_of_picture :
    let picture : Picture := { path := "a.ppm", width := 1, height := 1, data := .samples [] none }
    let scene : Scene := {
      frame := ⟨612.0, 792.0⟩
      place := { page := 1, pageCount := 1, pathname := "a.pdf" }
      stock := { pictures := (∅ : SortedMap String Picture).insert "a.ppm" picture } }
    let style : Style := {
      font := default, fontSize := 9.0, leading := 11.0, charSpacing := 0.0, wordSpacing := 0.0
      rise := 0.0, renderingMode := 0, horizontalScaling := 100.0, fill := .ofBytes 0 0 0
      stroke := .ofBytes 0 0 0, lineWidth := 1.0 }
    let commands : List Command := [
      { verb := .moveTo, operands := [⟨"0"⟩, ⟨"0"⟩] },
      { verb := .image, operands := [⟨"a.ppm"⟩, ⟨"0"⟩, ⟨"0"⟩] },
      { verb := .textPos, operands := [⟨"1"⟩, ⟨"1"⟩] },
      { verb := .text, operands := [⟨"A^B"⟩] }]
    let press : Press := { document := .ofObjects [] [], layer := .over }
    (∀ command ∈ commands, command.verb ≠ .literal) ∧
      ∃ canvas, recordAll press (scene.run style commands) = .ok canvas ∧
        depth canvas.operators = 0 ∧ canvas.operators.count "BT" = 1 := by
  intro picture scene style commands press
  have hliteral : ∀ command ∈ commands, command.verb ≠ .literal := by decide
  have hsucceeds : (recordAll press (scene.run style commands)).toOption.isSome = true := by
    decide +kernel
  obtain ⟨canvas, hcanvas⟩ := Option.isSome_iff_exists.1 hsucceeds
  have hrecord := Outcome.eq_ok_of_toOption hcanvas
  obtain ⟨-, -, hdepth, -, honce, -⟩ := recordAll_run_leaves_state hliteral hrecord
  obtain ⟨before, inside, -, hcount, -⟩ := honce (by decide)
  exact ⟨hliteral, canvas, hrecord, hdepth, hcount⟩

end Overprint
