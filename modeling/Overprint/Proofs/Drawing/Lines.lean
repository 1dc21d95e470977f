import Overprint.Proofs.Drawing.Step
import Overprint.Proofs.Text.Pieces

/-!
# Texts are broken into lines without loss

A text is shown in lines, between which there is one step to the next line and nothing else. Joined
by `^` again the lines are the text without the `^` at its end; none of them has a `^` in it, so no
line is missing and none is there twice, the empty ones before the last one included.
-/

namespace Overprint.Drawing

open Script Text

/-- The calls show the lines, one below the other. -/
inductive Displays : List Call → List String → Prop
  | nothing : Displays [] []
  | last (line : String) : Displays [.showText line] [line]
  | above (line : String) {calls : List Call} {next : String} {rest : List String}
      (hbelow : Displays calls (next :: rest)) :
      Displays (.showText line :: .nextLine :: calls) (line :: next :: rest)

theorem displays_showing (text : String) : Displays (showing text) (lines text) := by
  rw [showing]
  generalize lines text = shown
  induction shown with
  | nil => exact .nothing
  | cons line rest ih =>
    cases rest with
    | nil => exact .last line
    | cons next others => exact .above line ih

theorem Displays.eq_nil_iff {calls : List Call} {shown : List String}
    (hdisplays : Displays calls shown) : calls = [] ↔ shown = [] := by
  cases hdisplays with
  | nothing => exact ⟨fun _ => rfl, fun _ => rfl⟩
  | last line | above line => simp only [reduceCtorEq]

def withoutEndCarets (text : String) : String :=
  String.ofList (text.toList.rdropWhile (· == '^'))

def pieces (text : String) : List String :=
  (text.toList.splitOn '^').map String.ofList

theorem lines_eq (text : String) :
    lines text = (keptPieces '^' text.toList).map String.ofList :=
  rfl

theorem exists_pieces_eq (text : String) :
    ∃ count, pieces text = lines text ++ List.replicate count "" := by
  let dropped := (text.toList.splitOn '^').rtakeWhile (·.isEmpty)
  have hdropped : dropped = List.replicate dropped.length [] :=
    List.eq_replicate_of_mem fun piece hmem => List.isEmpty_iff.1 (List.mem_rtakeWhile_imp hmem)
  refine ⟨dropped.length, ?_⟩
  rw [lines_eq, ← String.ofList_nil, ← List.map_replicate, ← hdropped, ← List.map_append]
  exact congrArg _ List.rdropWhile_append_rtakeWhile.symm

theorem intercalate_lines (text : String) : "^".intercalate (lines text) = withoutEndCarets text := by
  rw [← String.toList_inj, String.toList_intercalate, lines_eq, List.map_map, withoutEndCarets,
    String.toList_ofList, ← intercalate_keptPieces]
  simp [Function.comp_def]

theorem not_mem_line {text line : String} (hmem : line ∈ lines text) : '^' ∉ line.toList := by
  rw [lines_eq] at hmem
  obtain ⟨piece, hpiece, rfl⟩ := List.mem_map.1 hmem
  rw [String.toList_ofList]
  exact not_mem_of_mem_splitOn ((List.rdropWhile_prefix _ _).subset hpiece)

theorem lines_eq_nil_iff {text : String} : lines text = [] ↔ ∀ c ∈ text.toList, c = '^' := by
  rw [lines_eq, List.map_eq_nil_iff, keptPieces_eq_nil_iff]

variable {scene : Scene} {pen after : Pen} {command : Command} {trace : List Call}

/-- A text that is carried out shows lines between the calls that set its style and its position and
those that put the style back. They are the pieces of the expanded text between its `^`, the empty
ones included, up to the last one that is not empty. Nothing is shown just when the text has no other
character than `^`. -/
theorem text_shown_without_loss (hverb : command.verb = .text)
    (hperform : scene.perform pen command = ⟨trace, .ok after⟩) :
    ∃ position? style operand calls shown,
      scene.textPosition command = .ok position? ∧
      pen.style.overlay scene.stock command = .ok style ∧
      command.operand 0 = .ok operand ∧
      trace = pen.opening ++ style.apply ++ placing position? ++ calls ++
        pen.style.restore style ∧
      Displays calls shown ∧
      "^".intercalate shown = withoutEndCarets (scene.place.expand operand.text) ∧
      (∀ line ∈ shown, '^' ∉ line.toList) ∧
      (∃ count, pieces (scene.place.expand operand.text) = shown ++ List.replicate count "") ∧
      (calls = [] ↔ ∀ c ∈ (scene.place.expand operand.text).toList, c = '^') := by
  rw [Scene.perform, hverb] at hperform
  obtain ⟨position?, style, operand, hposition, hstyle, hoperand, rfl, rfl⟩ :=
    showText_eq_ok hperform
  have hdisplays := displays_showing (scene.place.expand operand.text)
  refine ⟨position?, style, operand, _, _, hposition, hstyle, hoperand, rfl, hdisplays,
    intercalate_lines _, fun line => not_mem_line, exists_pieces_eq _, ?_⟩
  rw [hdisplays.eq_nil_iff, lines_eq_nil_iff]

/-- Empty lines before the text and in it are kept, those after it are not. -/
theorem text_shown_without_loss_of_empty_lines :
    let command : Command := { verb := .text, operands := [⟨"^A^^B^^"⟩] }
    let scene : Scene := {
      frame := ⟨612.0, 792.0⟩
      place := { page := 1, pageCount := 1, pathname := "a.pdf" }
      stock := {} }
    ∃ style trace after, Style.ofDefaults {} default = .ok style ∧
      scene.perform { style } command = ⟨trace, .ok after⟩ ∧
      ∃ calls shown, calls <:+: trace ∧ Displays calls shown ∧
        "^".intercalate shown = "^A^^B" ∧ calls ≠ [] := by
  intro command scene
  have hblack : Color.Rgb.read "black" = .ok (.ofBytes 0 0 0) := rfl
  obtain ⟨style, hstyle⟩ : ∃ style, Style.ofDefaults {} default = .ok style :=
    ⟨_, by rw [Style.ofDefaults, hblack]; rfl⟩
  obtain ⟨after, hafter⟩ : ∃ after, (scene.perform { style } command).outcome = .ok after :=
    ⟨_, rfl⟩
  have hperform := Traced.eq_of_outcome hafter
  obtain ⟨position?, applied, operand, calls, shown, -, -, hoperand, htrace, hdisplays, hjoined, -,
    -, hnothing⟩ := text_shown_without_loss rfl hperform
  cases hoperand
  have hexpanded : scene.place.expand "^A^^B^^" = "^A^^B^^" := by decide +kernel
  rw [hexpanded] at hjoined hnothing
  refine ⟨style, _, after, hstyle, hperform, calls, shown, ⟨_, _, htrace.symm⟩, hdisplays, hjoined, ?_⟩
  intro hempty
  have hletter : 'A' ∈ "^A^^B^^".toList := by decide
  exact absurd (hnothing.1 hempty 'A' hletter) (by decide)

end Overprint.Drawing
