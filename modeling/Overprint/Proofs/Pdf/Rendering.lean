import Mathlib.Data.List.Forall2
import Overprint.Proofs.Pdf.Completion
import Overprint.Proofs.Pdf.Naming

/-!
# How recorded operations read

Where a page uses a font or a picture, the operation that is recorded has a name. Names and objects
are counted by the press, so they depend on what came before; with the font or the picture itself in
place of its name, the operations of a page are those of its drawing and nothing else.
-/

namespace Overprint

open Drawing Pdf

def Asset.operator : Asset → String
  | font _ => "Tf"
  | picture _ => "Do"

def Font.operand (text : String) : Font → Object
  | standard font => .text (font.encode text)
  | embedded font => .hexText (font.encode text)

namespace Pdf

/-- An operation with a font or a picture in place of the name that is its first operand. -/
structure Rendered where
  operator : String
  asset? : Option Asset := none
  operands : List Object := []

def Operation.rendered (operation : Operation) : Rendered where
  operator := operation.operator
  operands := operation.operands

/-- How an operation reads if names stand for fonts and pictures. -/
inductive Operation.Reads (stands : Asset → String → Prop) : Operation → Rendered → Prop
  | plain {operation : Operation} (hnames : ∀ name, .name name ∉ operation.operands) :
    Reads stands operation operation.rendered
  | named {asset : Asset} {name : String} {operands : List Object} (hstands : stands asset name) :
    Reads stands { operator := asset.operator, operands := .name name :: operands }
      { operator := asset.operator, asset? := some asset, operands }

theorem Operation.Reads.mono {stands other : Asset → String → Prop} {operation : Operation}
    {rendered : Rendered} (hreads : operation.Reads stands rendered)
    (hstands : ∀ asset name, stands asset name → other asset name) :
    operation.Reads other rendered := by
  cases hreads with
  | plain hnames => exact .plain hnames
  | named hname => exact .named (hstands _ _ hname)

/-- Where an operation starts with a name, the name is read as the asset that it stands for. -/
theorem Operation.Reads.exists_asset {stands : Asset → String → Prop} {operation : Operation}
    {rendered : Rendered} (hreads : operation.Reads stands rendered) {name : String}
    (hname : operation.operands.head?.bind Object.toName? = some name) :
    ∃ asset, rendered.asset? = some asset ∧ operation.operator = asset.operator ∧
      stands asset name := by
  cases hreads with
  | plain hnames =>
    obtain ⟨operand, hhead, hoperand⟩ := Option.bind_eq_some_iff.1 hname
    cases operand with
    | name word => exact absurd (List.mem_of_head? hhead) (hnames word)
    | _ => cases hoperand
  | named hstands =>
    cases hname
    exact ⟨_, rfl, rfl, hstands⟩

end Pdf

namespace Drawing

def Call.fontAfter (font? : Option Font) : Call → Option Font
  | font face _ => some face
  | _ => font?

/-- How the operations of a call read when a font is in force. -/
def Call.rendered (font? : Option Font) : Call → List Rendered
  | font face size => [
    { operator := "Tf", asset? := some (.font face), operands := [real size] }]
  | showText text =>
    font?.toList.map fun font => { operator := "Tj", operands := [font.operand text] }
  | picture shown box => [
    { operator := "q" },
    (reals "cm" [box.width, 0.0, 0.0, box.height, box.x, box.y]).rendered,
    { operator := "Do", asset? := some (.picture shown) },
    { operator := "Q" }]
  | call => (plainOperation? call).toList.map Operation.rendered

def rendered : Option Font → List Call → List Rendered
  | _, [] => []
  | font?, call :: rest => call.rendered font? ++ rendered (call.fontAfter font?) rest

end Drawing

namespace Pdf

/-- The operation of a call that needs nothing from the document has no name in it. -/
theorem not_mem_of_plainOperation? {call : Call} {operation : Operation}
    (hplain : plainOperation? call = some operation) (name : String) :
    Object.name name ∉ operation.operands := by
  cases call with
  | path segment =>
    cases hplain
    cases segment <;> simp [segmentOperation, reals, real]
  | _ =>
    cases hplain
    try simp [reals, real, colorOperation, integerOperation]

namespace Press

variable {library : Library} {first : Nat} {press : Press}

theorem Registered.encodeText_eq (hregistered : press.Registered library first) {font : Font}
    (hfont : library.Provides (.font font)) (text : String) :
    (press.encodeText font text).1 = font.operand text := by
  obtain ⟨hused, -⟩ := hregistered.useFont hfont
  obtain ⟨hkey, hentry, -⟩ := hused.keys _ _ (press.get?_useFont font)
  have hsame := hentry.eq_of_key hfont hkey
  simp only [Press.encodeText]
  split
  next standard hstandard => rw [← hsame, hstandard, Font.operand]
  next embedded hembedded => rw [← hsame, hembedded, Font.operand]

end Press

namespace Canvas

/-- A name stands for an asset on a canvas: it is on record on the press, and the stamp has it. -/
def Stands (library : Library) (canvas : Canvas) (asset : Asset) (name : String) : Prop :=
  library.Provides asset ∧ ∃ id, canvas.press.Has asset name id ∧
    (canvas.stamp.names asset.category).get? name = some id

variable {library : Library} {first : Nat} {canvas after : Canvas} {call : Call}

theorem Continues.stands (hcontinues : canvas.Continues after)
    (hafter : after.Registered library first) {asset : Asset} {name : String}
    (hstands : canvas.Stands library asset name) : after.Stands library asset name := by
  obtain ⟨hprovides, id, hhas, hname⟩ := hstands
  exact ⟨hprovides, id, hcontinues.retains asset name id hhas,
    hcontinues.get?_names hafter hhas hname⟩

/-- The operations that are recorded for a call read as its own, and it leaves the font in force that
it is to leave. -/
theorem Registered.record_rendered (hregistered : canvas.Registered library first)
    (hcall : call.UsesOf library) (hrecord : canvas.record call = .ok after) :
    after.font? = call.fontAfter canvas.font? ∧
      ∃ operations, after.stamp.operations = canvas.stamp.operations ++ operations ∧
        List.Forall₂ (Operation.Reads (after.Stands library)) operations
          (call.rendered canvas.font?) := by
  have hplain (operation : Operation) (h : plainOperation? call = some operation) :=
    not_mem_of_plainOperation? h
  cases call with
  | font font size =>
    have hasset : (Call.font font size).asset? = some (.font font) := rfl
    obtain ⟨name, id, hhas, hoperations, hname⟩ := record_asset hregistered hcall hasset hrecord
    have hstands : after.Stands library (.font font) name := ⟨hcall _ rfl, id, hhas, hname⟩
    cases hrecord
    exact ⟨rfl, _, hoperations, .cons (.named hstands) .nil⟩
  | picture picture box =>
    have hasset : (Call.picture picture box).asset? = some (.picture picture) := rfl
    obtain ⟨name, id, hhas, hoperations, hname⟩ := record_asset hregistered hcall hasset hrecord
    have hstands : after.Stands library (.picture picture) name := ⟨hcall _ rfl, id, hhas, hname⟩
    cases hrecord
    refine ⟨rfl, _, hoperations, ?_⟩
    exact .cons (.plain (by simp)) (.cons (.plain (by simp [reals, real]))
      (.cons (.named hstands) (.cons (.plain (by simp)) .nil)))
  | showText text =>
    rw [Canvas.record, Canvas.showText] at hrecord
    split at hrecord
    · cases hrecord
    next font hfont =>
      have hoperand := hregistered.press.encodeText_eq (hregistered.font font hfont) text
      obtain rfl := Except.ok.inj hrecord
      refine ⟨rfl, [{ operator := "Tj", operands := [(canvas.press.encodeText font text).1] }], rfl, ?_⟩
      rw [hoperand, Call.rendered, hfont]
      refine .cons (.plain fun name => ?_) .nil
      cases font <;> simp [Font.operand]
  | _ =>
    cases hrecord
    exact ⟨rfl, _, rfl, .cons (.plain (hplain _ rfl)) .nil⟩

theorem Registered.foldlM_record_rendered {calls : List Call}
    (hregistered : canvas.Registered library first) (hcalls : ∀ call ∈ calls, call.UsesOf library)
    (hfold : calls.foldlM Canvas.record canvas = .ok after) :
    ∃ operations, after.stamp.operations = canvas.stamp.operations ++ operations ∧
      List.Forall₂ (Operation.Reads (after.Stands library)) operations
        (rendered canvas.font? calls) := by
  induction calls generalizing canvas with
  | nil =>
    cases hfold
    exact ⟨[], (List.append_nil _).symm, .nil⟩
  | cons call rest ih =>
    obtain ⟨hcall, hrest⟩ := List.forall_mem_cons.1 hcalls
    rw [List.foldlM_cons] at hfold
    obtain ⟨next, hrecord, hlater⟩ := Outcome.bind_eq_ok.1 hfold
    obtain ⟨hnext, -⟩ := hregistered.record hcall hrecord
    obtain ⟨hafter, hcontinues⟩ := hnext.foldlM_record hrest hlater
    obtain ⟨hfont, own, hown, hreads⟩ := hregistered.record_rendered hcall hrecord
    obtain ⟨others, hothers, hremaining⟩ := ih hnext hrest hlater
    refine ⟨own ++ others, by rw [hothers, hown, List.append_assoc], ?_⟩
    rw [rendered, ← hfont]
    exact List.rel_append (hreads.imp fun _ _ h => h.mono fun _ _ => hcontinues.stands hafter)
      hremaining

end Canvas

end Pdf

end Overprint
