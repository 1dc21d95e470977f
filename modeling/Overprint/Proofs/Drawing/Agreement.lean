import Overprint.Proofs.Drawing.Provenance
import Overprint.Proofs.Provision

/-!
# Drawings from two stocks

The commands of a page see a stock through the names that they ask it for, and the page sees which font
is in force at its start. Two stocks that were loaded from one library agree on every name that both of
them have; so a page is drawn alike whatever else was loaded, for which pages and in which order.
-/

namespace Overprint

open Drawing Script

namespace Stock

/-- Two stocks give the same for a request. -/
def Alike (stock other : Stock) : Request → Prop
  | .font name => stock.font name = other.font name
  | .picture path => stock.picture path = other.picture path

variable {library : Library} {stock other : Stock} {face shown : Font}

theorem Matches.alike (hstock : stock.Matches library face) (hother : other.Matches library shown)
    {request : Request} (hfirst : stock.Provides request) (hsecond : other.Provides request) :
    stock.Alike other request := by
  cases request with
  | font name =>
    obtain ⟨font, hfont⟩ := font_succeeds hfirst
    obtain ⟨found, hfound⟩ := font_succeeds hsecond
    have hgiven := hstock.fonts name font (font_eq_ok.1 hfont)
    have hagain := hother.fonts name found (font_eq_ok.1 hfound)
    rw [Alike, hfont, hfound, ← hgiven, ← hagain]
  | picture path =>
    obtain ⟨picture, hpicture⟩ := picture_succeeds hfirst
    obtain ⟨found, hfound⟩ := picture_succeeds hsecond
    have hgiven := hstock.pictures path picture (picture_eq_ok.1 hpicture)
    have hagain := hother.pictures path found (picture_eq_ok.1 hfound)
    rw [Alike, hpicture, hfound, ← hgiven, ← hagain]

/-- Stocks that were loaded from one library give the same for what both scripts name, and before a
script names a font they have the same one in force. -/
theorem alike_of_load {defaultFont? : Option String} {script otherScript : List Command}
    (hload : (load library defaultFont? script).outcome = .ok stock)
    (hother : (load library defaultFont? otherScript).outcome = .ok other) :
    stock.defaultFont = other.defaultFont ∧
      ∀ command, command ∈ script → command ∈ otherScript →
        ∀ request ∈ command.request?, stock.Alike other request := by
  obtain ⟨face, hface, hstock⟩ := matches_of_load hload
  obtain ⟨shown, hshown, hmatches⟩ := matches_of_load hother
  rw [hface, Except.ok.injEq] at hshown
  refine ⟨by rw [hstock.default, hmatches.default, hshown], fun command hmem hagain request hask => ?_⟩
  exact hstock.alike hmatches (provides_of_load hload command hmem request hask)
    (provides_of_load hother command hagain request hask)

end Stock

namespace Drawing

variable {stock other : Stock} {command : Command}

theorem Style.overlay_congr (hverb : command.verb = .text)
    (halike : ∀ request ∈ command.request?, stock.Alike other request) (style : Style) :
    style.overlay stock command = style.overlay other command := by
  have hface : settingOr command "ff" (fun name => stock.font name.text) style.font =
      settingOr command "ff" (fun name => other.font name.text) style.font := by
    rw [settingOr, settingOr]
    cases hname : command.setting? "ff" with
    | none => rfl
    | some name =>
      have hrequest : command.request? = some (.font name.text) := by
        simp only [Command.request?, hverb, hname, Option.map_some]
      exact halike _ hrequest
  rw [Style.overlay, Style.overlay, hface]

namespace Scene

/-- A command is carried out alike with stocks that give the same for what it names. -/
theorem perform_congr (scene : Scene) (halike : ∀ request ∈ command.request?, stock.Alike other request)
    (pen : Pen) : ({ scene with stock } : Scene).perform pen command =
      ({ scene with stock := other } : Scene).perform pen command := by
  cases hverb : command.verb with
  | fontFile =>
    simp only [perform, hverb]
    cases hname : command.operand 0 with
    | error failure => rfl
    | ok name =>
      have hrequest : command.request? = some (.font name.text) := by
        rw [Command.request?, hverb, Command.operand_eq_ok.1 hname]
        rfl
      have hfont : stock.font name.text = other.font name.text := halike _ hrequest
      simp only [Traced.lift_ok_bind, hfont]
  | text =>
    simp only [perform, hverb, showText, Style.overlay_congr hverb halike]
    rfl
  | image =>
    simp only [perform, hverb, showPicture]
    cases hpath : command.operand 0 with
    | error failure => rfl
    | ok path =>
      have hrequest : command.request? = some (.picture path.text) := by
        rw [Command.request?, hverb, Command.operand_eq_ok.1 hpath]
        rfl
      have hpicture : stock.picture path.text = other.picture path.text := halike _ hrequest
      simp only [Traced.lift_ok_bind, hpicture]
  | _ => simp only [perform, hverb] <;> rfl

theorem foldlM_perform_congr (scene : Scene) {commands : List Command}
    (halike : ∀ command ∈ commands, ∀ request ∈ command.request?, stock.Alike other request)
    (pen : Pen) : commands.foldlM ({ scene with stock } : Scene).perform pen =
      commands.foldlM ({ scene with stock := other } : Scene).perform pen := by
  induction commands generalizing pen with
  | nil => rfl
  | cons command rest ih =>
    obtain ⟨hcommand, hrest⟩ := List.forall_mem_cons.1 halike
    rw [List.foldlM_cons, List.foldlM_cons, scene.perform_congr hcommand]
    simp only [ih hrest]

/-- A page is drawn alike with two stocks that give the same for what its commands name. -/
theorem page_congr (scene : Scene) {commands : List Command}
    (hface : stock.defaultFont = other.defaultFont)
    (halike : ∀ command ∈ commands, ∀ request ∈ command.request?, stock.Alike other request)
    (defaults : Defaults) : ({ scene with stock } : Scene).page defaults commands =
      ({ scene with stock := other } : Scene).page defaults commands := by
  simp only [page, run, hface, scene.foldlM_perform_congr halike]

end Scene

end Drawing

end Overprint
