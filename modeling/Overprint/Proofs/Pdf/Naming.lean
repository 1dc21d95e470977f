import Overprint.Proofs.Pdf.Registry

/-!
# Names that stand for fonts and pictures

A canvas writes a name into the content of a page, and puts the same name with the object that it
stands for into the resources of the stamp. Attaching the stamp binds the name in the page; and as all
names come from one register, no later stamp on the same page binds it to something else.
-/

namespace Overprint.Pdf

open Drawing

namespace Document

/-- The dictionary in a place has resources of its own, and they bind a name to an object. -/
def BindsAt (document : Document) (place : ObjectId) (category name : String) (id : ObjectId) :
    Prop :=
  ∃ entries resources names,
    document.objects.get? place = some (.dictionary entries) ∧
    Dictionary.get? "Resources" entries = some (.dictionary resources) ∧
    Dictionary.get? category resources = some (.dictionary names) ∧
    Dictionary.get? name names = some (.reference id)

variable {document : Document} {page place id : ObjectId} {category name : String}
  {entries : Dictionary}

theorem BindsAt.binding? (hbinds : document.BindsAt place category name id)
    (hpage : document.locate page = .ok (place, .dictionary entries)) :
    document.binding? page category name = some (.reference id) := by
  obtain ⟨found, resources, names, hget, hresources, hcategory, hname⟩ := hbinds
  rw [(get?_of_locate hpage).1] at hget
  cases hget
  rw [Document.binding?, resources_of_own (dictionary?_of_locate hpage) hresources, hcategory]
  exact hname

end Document

namespace Press

variable {press : Press} {page place other id : ObjectId} {stamp : Stamp} {entries : Dictionary}
  {category name : String} (hnumbered : press.document.Numbered)
  (hpage : press.document.locate page = .ok (place, .dictionary entries))

include hnumbered hpage

/-- A page that a stamp is attached to has the resources that were made for it. -/
theorem bindsAt_of_stampedResources {names : Dictionary}
    (hcategory : Dictionary.get? category (press.stampedResources page stamp) =
      some (.dictionary names))
    (hname : Dictionary.get? name names = some (.reference id)) :
    (press.attach page stamp).2.document.BindsAt place category name id := by
  obtain ⟨-, -, hlocate⟩ := @attach_spec _ _ stamp _ _ hnumbered hpage
  refine ⟨_, _, names, (Document.get?_of_locate hlocate).1, ?_, hcategory, hname⟩
  rw [get?_stampedPage, if_neg (by decide), if_pos rfl]

theorem bindsAt_attach_of_get? (hget : (stamp.names category).get? name = some id) :
    (press.attach page stamp).2.document.BindsAt place category name id := by
  have hnames : (stamp.names category).entries ≠ [] := by
    intro hempty
    rw [SortedMap.get?, hempty] at hget
    cases hget
  obtain ⟨new, hnew, hbound⟩ :=
    get?_mergedResources (press.stampContent stamp).2 page stamp hnames
  refine bindsAt_of_stampedResources hnumbered hpage hnew ?_
  rw [hbound, hget]

/-- A stamp that knows a name for the same object leaves it bound. -/
theorem bindsAt_attach_self (hbinds : press.document.BindsAt place category name id)
    (hagree : ∀ found, (stamp.names category).get? name = some found → found = id) :
    (press.attach page stamp).2.document.BindsAt place category name id := by
  have hbinding := hbinds.binding? hpage
  obtain ⟨found, resources, names, hget, hresources, hcategory, hname⟩ := hbinds
  rw [(Document.get?_of_locate hpage).1] at hget
  cases hget
  have hown := Document.resources_of_own (Document.dictionary?_of_locate hpage) hresources
  by_cases hnames : (stamp.names category).entries = []
  · refine bindsAt_of_stampedResources hnumbered hpage ?_ hname
    rw [stampedResources, get?_mergedResources_of_empty _ _ _ hnames,
      press.resources_stampContent page stamp hnumbered, hown, hcategory]
  · obtain ⟨new, hnew, hbound⟩ :=
      get?_mergedResources (press.stampContent stamp).2 page stamp hnames
    refine bindsAt_of_stampedResources hnumbered hpage hnew ?_
    rw [hbound, press.binding?_stampContent page stamp hnumbered, hbinding]
    cases hfound : (stamp.names category).get? name with
    | none => rfl
    | some found => rw [hagree found hfound]

theorem bindsAt_attach (hbinds : press.document.BindsAt other category name id)
    (hagree : ∀ found, (stamp.names category).get? name = some found → found = id) :
    (press.attach page stamp).2.document.BindsAt other category name id := by
  by_cases hother : other = place
  · subst hother
    exact bindsAt_attach_self hnumbered hpage hbinds hagree
  · obtain ⟨found, resources, names, hget, hrest⟩ := hbinds
    obtain ⟨-, hover, -⟩ := @attach_spec _ _ stamp _ _ hnumbered hpage
    refine ⟨found, resources, names, ?_, hrest⟩
    rw [hover.kept other (hnumbered other _ hget) hother, hget]

end Press

/-- The operations of a call that uses a font or a picture under a name. -/
def namedOperations (name : String) : Call → List Operation
  | .font _ size => [{ operator := "Tf", operands := [.name name, real size] }]
  | .picture _ box => [
    { operator := "q" },
    reals "cm" [box.width, 0.0, 0.0, box.height, box.x, box.y],
    { operator := "Do", operands := [.name name] },
    { operator := "Q" }]
  | _ => []

namespace Canvas

/-- A canvas on a press, the names of which are on record there. -/
structure Registered (library : Library) (first : Nat) (canvas : Canvas) : Prop where
  press : canvas.press.Registered library first
  font : ∀ font, canvas.font? = some font → library.Provides (.font font)
  fonts : ∀ name id, canvas.stamp.fonts.get? name = some id →
    ∃ font, canvas.press.Has (.font font) name id
  pictures : ∀ name id, canvas.stamp.pictures.get? name = some id →
    ∃ picture, canvas.press.Has (.picture picture) name id

structure Continues (before after : Canvas) : Prop where
  retains : before.press.Retains after.press
  operations : before.stamp.operations <+: after.stamp.operations
  fonts : ∀ name, (before.stamp.fonts.get? name).isSome → (after.stamp.fonts.get? name).isSome
  pictures : ∀ name, (before.stamp.pictures.get? name).isSome →
    (after.stamp.pictures.get? name).isSome

variable {library : Library} {first : Nat} {canvas middle after : Canvas} {call : Call}

theorem Continues.refl (canvas : Canvas) : canvas.Continues canvas where
  retains _ _ _ hhas := hhas
  operations := List.prefix_rfl
  fonts _ hname := hname
  pictures _ hname := hname

theorem Continues.trans (hfirst : canvas.Continues middle) (hsecond : middle.Continues after) :
    canvas.Continues after where
  retains asset name id hhas := hsecond.retains asset name id (hfirst.retains asset name id hhas)
  operations := hfirst.operations.trans hsecond.operations
  fonts name hname := hsecond.fonts name (hfirst.fonts name hname)
  pictures name hname := hsecond.pictures name (hfirst.pictures name hname)

theorem registered_start {press : Press} (hregistered : press.Registered library first) :
    Registered library first { press } where
  press := hregistered
  font _ hfont := by cases hfont
  fonts _ _ hget := by cases hget
  pictures _ _ hget := by cases hget

/-- The names of a stamp are still on record when a press has taken up more. -/
theorem Registered.names_of_retains {press : Press}
    (hregistered : canvas.Registered library first) (hretains : canvas.press.Retains press) :
    (∀ name id, canvas.stamp.fonts.get? name = some id →
      ∃ font, press.Has (.font font) name id) ∧
    ∀ name id, canvas.stamp.pictures.get? name = some id →
      ∃ picture, press.Has (.picture picture) name id := by
  refine ⟨fun name id hget => ?_, fun name id hget => ?_⟩
  · obtain ⟨font, hhas⟩ := hregistered.fonts name id hget
    exact ⟨font, hretains _ _ _ hhas⟩
  · obtain ⟨picture, hhas⟩ := hregistered.pictures name id hget
    exact ⟨picture, hretains _ _ _ hhas⟩

theorem Registered.record (hregistered : canvas.Registered library first)
    (hcall : call.UsesOf library) (hrecord : canvas.record call = .ok after) :
    after.Registered library first ∧ canvas.Continues after := by
  have hoperations {operations : List Operation} :
      canvas.stamp.operations <+: canvas.stamp.operations ++ operations :=
    List.prefix_append _ _
  cases call with
  | font font size =>
    cases hrecord
    have hfont := hcall (.font font) rfl
    obtain ⟨hpress, hretains⟩ := hregistered.press.useFont hfont
    obtain ⟨hfonts, hpictures⟩ := hregistered.names_of_retains hretains
    have hhas : (canvas.press.useFont font).2.Has (.font font)
        (canvas.press.useFont font).1.name (canvas.press.useFont font).1.id :=
      ⟨_, canvas.press.get?_useFont font, rfl, rfl⟩
    refine ⟨⟨hpress, fun other hother => ?_,
      SortedMap.forall_get?_insert hfonts ⟨font, hhas⟩, hpictures⟩,
      ⟨hretains, hoperations, fun _ => SortedMap.isSome_get?_insert, fun _ hname => hname⟩⟩
    cases hother
    exact hfont
  | showText text =>
    rw [Canvas.record, Canvas.showText] at hrecord
    split at hrecord
    · cases hrecord
    next font hfont =>
      cases hrecord
      obtain ⟨hpress, hretains⟩ :=
        hregistered.press.encodeText (hregistered.font font hfont) text
      obtain ⟨hfonts, hpictures⟩ := hregistered.names_of_retains hretains
      exact ⟨⟨hpress, hregistered.font, hfonts, hpictures⟩,
        ⟨hretains, hoperations, fun _ hname => hname, fun _ hname => hname⟩⟩
  | picture picture box =>
    cases hrecord
    obtain ⟨hpress, hretains, hhas⟩ := hregistered.press.usePicture (hcall (.picture picture) rfl)
    obtain ⟨hfonts, hpictures⟩ := hregistered.names_of_retains hretains
    exact ⟨⟨hpress, hregistered.font, hfonts,
      SortedMap.forall_get?_insert hpictures ⟨picture, hhas⟩⟩,
      ⟨hretains, hoperations, fun _ hname => hname, fun _ => SortedMap.isSome_get?_insert⟩⟩
  | _ =>
    cases hrecord
    exact ⟨⟨hregistered.press, hregistered.font, hregistered.fonts, hregistered.pictures⟩,
      ⟨fun _ _ _ hhas => hhas, hoperations, fun _ hname => hname, fun _ hname => hname⟩⟩

theorem Registered.foldlM_record {calls : List Call}
    (hregistered : canvas.Registered library first)
    (hcalls : ∀ call ∈ calls, call.UsesOf library)
    (hfold : calls.foldlM Canvas.record canvas = .ok after) :
    after.Registered library first ∧ canvas.Continues after := by
  refine Outcome.foldlM_preserves
    (motive := fun drawn => drawn.Registered library first ∧ canvas.Continues drawn) ?_ hfold
    ⟨hregistered, .refl canvas⟩
  rintro before call next hmem hrecord ⟨hbefore, hcontinues⟩
  obtain ⟨hnext, hone⟩ := hbefore.record (hcalls call hmem) hrecord
  exact ⟨hnext, hcontinues.trans hone⟩

/-- A call that uses a font or a picture is recorded under a name that stands for it: on the press,
and in the resources of the stamp. -/
theorem record_asset {asset : Asset} (hregistered : canvas.Registered library first)
    (hcall : call.UsesOf library) (hasset : call.asset? = some asset)
    (hrecord : canvas.record call = .ok after) :
    ∃ name id, after.press.Has asset name id ∧
      after.stamp.operations = canvas.stamp.operations ++ namedOperations name call ∧
      (after.stamp.names asset.category).get? name = some id := by
  cases call with
  | font font size =>
    cases hrecord
    cases hasset
    exact ⟨_, _, ⟨_, canvas.press.get?_useFont font, rfl, rfl⟩, rfl, SortedMap.get?_insert_self ..⟩
  | picture picture box =>
    cases hrecord
    cases hasset
    obtain ⟨-, -, hhas⟩ := hregistered.press.usePicture (hcall (.picture picture) rfl)
    exact ⟨_, _, hhas, rfl, SortedMap.get?_insert_self ..⟩
  | _ => cases hasset

/-- A stamp has a name only for the object that the name stands for on the press. -/
theorem Registered.eq_of_names {asset : Asset} {name : String} {id found : ObjectId}
    (hregistered : canvas.Registered library first) (hhas : canvas.press.Has asset name id)
    (hget : (canvas.stamp.names asset.category).get? name = some found) : found = id := by
  obtain ⟨other, hother⟩ : ∃ other, canvas.press.Has other name found := by
    cases asset with
    | font font =>
      obtain ⟨other, hother⟩ := hregistered.fonts name found hget
      exact ⟨.font other, hother⟩
    | picture picture =>
      obtain ⟨other, hother⟩ := hregistered.pictures name found hget
      exact ⟨.picture other, hother⟩
  obtain ⟨hname, hid⟩ := hregistered.press.same_iff hother hhas
  exact hid.2 (hname.1 rfl)

theorem Continues.get?_names {asset : Asset} {name : String} {id : ObjectId}
    (hcontinues : canvas.Continues after) (hafter : after.Registered library first)
    (hhas : canvas.press.Has asset name id)
    (hget : (canvas.stamp.names asset.category).get? name = some id) :
    (after.stamp.names asset.category).get? name = some id := by
  have hbefore : ((canvas.stamp.names asset.category).get? name).isSome := by
    rw [hget, Option.isSome_some]
  have hsome : ((after.stamp.names asset.category).get? name).isSome := by
    cases asset with
    | font => exact hcontinues.fonts name hbefore
    | picture => exact hcontinues.pictures name hbefore
  obtain ⟨found, hfound⟩ := Option.isSome_iff_exists.1 hsome
  rw [hfound, hafter.eq_of_names (hcontinues.retains _ _ _ hhas) hfound]

end Canvas

end Overprint.Pdf
