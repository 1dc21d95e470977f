import Overprint.Pdf.Canvas
import Overprint.Proofs.Drawing.Step

/-!
# What a canvas records

A canvas refuses one call only: text with no font in force. As the font stays in force once there is
one, calls are recorded on every canvas if a font comes before their first text.
-/

namespace Overprint.Pdf

open Drawing

namespace Canvas

variable {canvas after : Canvas} {call : Call}

theorem record_succeeds (hcall : call.IsSilent) : (canvas.record call).Succeeds := by
  cases call with
  | showText text => exact hcall.elim
  | font | picture => exact .pure _
  | _ => exact .pure _

theorem record_succeeds_of_font (hfont : canvas.font?.isSome) :
    (canvas.record call).Succeeds := by
  cases call with
  | showText text =>
    obtain ⟨font, hfont⟩ := Option.isSome_iff_exists.1 hfont
    rw [record, showText, hfont]
    exact .pure _
  | _ => exact record_succeeds trivial

theorem isSome_font?_of_record (hrecord : canvas.record call = .ok after)
    (hfont : canvas.font?.isSome) : after.font?.isSome := by
  cases call with
  | font => cases hrecord; rfl
  | showText text =>
    obtain ⟨font, hsome⟩ := Option.isSome_iff_exists.1 hfont
    rw [record, showText, hsome] at hrecord
    cases hrecord
    exact hfont
  | _ => cases hrecord; exact hfont

theorem foldlM_record_succeeds_of_font {calls : List Call} {canvas : Canvas}
    (hfont : canvas.font?.isSome) : (calls.foldlM record canvas).Succeeds := by
  induction calls generalizing canvas with
  | nil => exact .pure canvas
  | cons call rest ih =>
    rw [List.foldlM_cons]
    refine (record_succeeds_of_font hfont).bind fun next hnext => ?_
    exact ih (isSome_font?_of_record hnext hfont)

end Canvas

/-- Calls that every canvas records. -/
def Recordable (calls : List Call) : Prop :=
  ∀ canvas : Canvas, (calls.foldlM Canvas.record canvas).Succeeds

namespace Recordable

theorem nil : Recordable [] :=
  fun canvas => .pure canvas

theorem append {first second : List Call} (hfirst : Recordable first)
    (hsecond : Recordable second) : Recordable (first ++ second) := by
  intro canvas
  rw [List.foldlM_append]
  exact (hfirst canvas).bind fun next _ => hsecond next

theorem of_isSilent {calls : List Call} (hcalls : ∀ call ∈ calls, call.IsSilent) :
    Recordable calls := by
  induction calls with
  | nil => exact nil
  | cons call rest ih =>
    intro canvas
    rw [List.foldlM_cons]
    refine (Canvas.record_succeeds (hcalls call List.mem_cons_self)).bind fun next _ => ?_
    exact ih (fun other hmem => hcalls other (List.mem_cons_of_mem _ hmem)) next

theorem font_cons (face : Font) (size : Number.Double) (calls : List Call) :
    Recordable (.font face size :: calls) := by
  intro canvas
  have hfont : (canvas.record (.font face size)).Succeeds := .pure _
  rw [List.foldlM_cons]
  refine hfont.bind fun next hnext => ?_
  refine Canvas.foldlM_record_succeeds_of_font ?_
  cases hnext
  rfl

theorem apply_append (style : Style) (calls : List Call) :
    Recordable (style.apply ++ calls) := by
  have hcolors : Recordable
      [.fillColor style.fill, .strokeColor style.stroke, .lineWidth style.lineWidth] := by
    refine of_isSilent ?_
    simp [Call.IsSilent]
  exact hcolors.append (font_cons style.font style.fontSize _)

end Recordable

end Overprint.Pdf
