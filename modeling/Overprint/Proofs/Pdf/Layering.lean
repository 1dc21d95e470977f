import Overprint.Proofs.Pdf.Binding
import Overprint.Proofs.Pdf.Grounded

/-!
# What a stamped page shows

A stamp goes under the content of a page or over it. Whatever the press did before, a page shows the
stamp and what it showed, one after the other, and in the upper layer what it showed stands between
the two shared streams that save and restore the graphics state. Every other page shows what it did.
-/

namespace Overprint.Pdf

/-- The content of a page with a stamp. The page showed something before, or listed nothing. -/
def laid (layer : Layer) (bare : Bool) (former stamp : List UInt8) : List UInt8 :=
  match layer with
  | .under => stamp ++ former
  | .over => if bare then stamp else ascii "q\n" ++ former ++ ascii "\nQ\n" ++ stamp

/-- The content of a page with stamps that were attached one after the other. -/
def laidAll (layer : Layer) (bare : Bool) (former : List UInt8) : List Stamp → List UInt8
  | [] => former
  | stamp :: rest => laidAll layer false (laid layer bare former (contentOf stamp.operations)) rest

def Document.place? (document : Document) (id : ObjectId) : Option ObjectId :=
  (document.locate id).toOption.map (·.1)

theorem Document.place?_of_locate {document : Document} {id place : ObjectId} {object : Object}
    (hlocate : document.locate id = .ok (place, object)) : document.place? id = some place := by
  rw [Document.place?, hlocate]
  rfl

/-- What a press can become by printing, whatever is printed and whether or not it succeeds. -/
inductive Press.Reaches (start : Press) : Press → Prop
  | start : start.Reaches start
  | font {press : Press} (font : Font) (hpress : start.Reaches press) :
    start.Reaches (press.useFont font).2
  | text {press : Press} (font : Font) (text : String) (hpress : start.Reaches press) :
    start.Reaches (press.encodeText font text).2
  | picture {press : Press} (picture : Picture) (hpress : start.Reaches press) :
    start.Reaches (press.usePicture picture).2
  | attach {press : Press} (page : ObjectId) (stamp : Stamp) (hpress : start.Reaches press) :
    start.Reaches (press.attach page stamp).2

namespace Press

theorem get?_addContent (press : Press) (bytes : List UInt8) :
    (press.addContent bytes).2.document.objects.get? (press.addContent bytes).1 =
      some (.stream [] bytes) :=
  SortedMap.get?_insert_self ..

/-- A press that prints on one layer. Its document is grounded, and the streams that it puts around
the content of pages are what they were made as. -/
structure Steady (layer : Layer) (press : Press) : Prop where
  layer : press.layer = layer
  document : press.document.Grounded
  wrappers : ∀ wrappers ∈ press.wrappers?,
    press.document.objects.get? wrappers.1 = some (.stream [] (ascii "q\n")) ∧
      press.document.objects.get? wrappers.2 = some (.stream [] (ascii "\nQ\n"))

namespace Steady

variable {layer : Layer} {press : Press}

section Steps

variable (hsteady : press.Steady layer)

include hsteady

theorem withDocument {document : Document} {pages : ObjectId → Prop}
    (hgrounded : document.Grounded) (hover : press.document.Overprints pages document) :
    Steady layer { press with document } where
  layer := hsteady.layer
  document := hgrounded
  wrappers wrappers hmem := by
    obtain ⟨hsave, hrestore⟩ := hsteady.wrappers wrappers hmem
    have hnumbered := hsteady.document.numbered
    exact ⟨hover.get?_of_not_dictionary hnumbered hsave rfl,
      hover.get?_of_not_dictionary hnumbered hrestore rfl⟩

theorem add {object : Object} (hobject : object.Grounded (press.document.lastNumber + 1)) :
    Steady layer { press with document := (press.document.add object).2 } :=
  hsteady.withDocument (hsteady.document.add hobject)
    ((Document.Overprints.untouched _).add hsteady.document.numbered object).1

theorem useFont (font : Font) : (press.useFont font).2.Steady layer := by
  cases hget : press.fonts.get? font.key with
  | some entry =>
    simp only [Press.useFont, hget]
    exact hsteady
  | none =>
    simp only [Press.useFont, hget]
    cases font with
    | standard standard =>
      have hfont : (Object.dictionary (standardFont standard)).Grounded
          (press.document.lastNumber + 1) := by
        intro value hvalue
        rw [standardFont] at hvalue
        split at hvalue <;> cases hvalue
      have hadded := hsteady.add hfont
      exact ⟨hadded.layer, hadded.document, hadded.wrappers⟩
    | embedded embedded =>
      have hreserved := hsteady.withDocument hsteady.document.reserve
        (Document.Overprints.untouched _).reserve.1
      exact ⟨hreserved.layer, hreserved.document, hreserved.wrappers⟩

theorem encodeText (font : Font) (text : String) : (press.encodeText font text).2.Steady layer := by
  have hused := hsteady.useFont font
  simp only [Press.encodeText]
  split
  · exact hused
  · exact ⟨hused.layer, hused.document, hused.wrappers⟩

theorem usePicture (picture : Picture) : (press.usePicture picture).2.Steady layer := by
  cases hget : press.pictures.get? (Text.Path.components picture.path) with
  | some entry =>
    simp only [Press.usePicture, hget]
    exact hsteady
  | none =>
    simp only [Press.usePicture, hget]
    have hadded := hsteady.withDocument (hsteady.document.addPicture picture)
      ((Document.Overprints.untouched _).addPicture hsteady.document.numbered picture)
    exact ⟨hadded.layer, hadded.document, hadded.wrappers⟩

theorem addContent (bytes : List UInt8) : (press.addContent bytes).2.Steady layer :=
  hsteady.add (Object.grounded_stream _ [] bytes)

theorem useWrappers : press.useWrappers.2.Steady layer ∧
    press.useWrappers.2.wrappers? = some press.useWrappers.1 := by
  cases hwrappers : press.wrappers? with
  | some wrappers =>
    simp only [Press.useWrappers, hwrappers]
    exact ⟨hsteady, trivial⟩
  | none =>
    simp only [Press.useWrappers, hwrappers]
    have hsave := hsteady.addContent (ascii "q\n")
    have hboth := hsave.addContent (ascii "\nQ\n")
    refine ⟨⟨hboth.layer, hboth.document, fun wrappers hmem => ?_⟩, trivial⟩
    cases hmem
    have hover := (Document.Overprints.untouched (press.addContent (ascii "q\n")).2.document).add
      hsave.document.numbered (.stream [] (ascii "\nQ\n"))
    refine ⟨?_, get?_addContent _ _⟩
    exact hover.1.get?_of_not_dictionary hsave.document.numbered (get?_addContent _ _) rfl

theorem arrange {existing : List Object} {stamp : ObjectId}
    (hexisting : (Object.array existing).ListsWithin press.document.lastNumber)
    (hstamp : stamp.number ≤ press.document.lastNumber) :
    (press.arrange existing stamp).2.Steady layer ∧
      (Object.array (press.arrange existing stamp).1).ListsWithin
        (press.arrange existing stamp).2.document.lastNumber := by
  rw [Press.arrange]
  split
  · refine ⟨hsteady, fun id hmem => ?_⟩
    rcases List.mem_cons.1 hmem with rfl | hmem
    · exact hstamp
    · exact hexisting id hmem
  · split
    · refine ⟨hsteady, fun id hmem => ?_⟩
      cases List.mem_singleton.1 hmem
      exact hstamp
    · obtain ⟨hwrapped, hwrappers⟩ := hsteady.useWrappers
      obtain ⟨hsave, hrestore⟩ := hwrapped.wrappers _ hwrappers
      have hlast := (press.useWrappers_overprints hsteady.document.numbered (.untouched _)).last
      refine ⟨hwrapped, fun id hmem => ?_⟩
      simp only [List.filterMap_cons, List.filterMap_append, List.filterMap_nil,
        Object.toReference?, List.cons_append, List.mem_cons, List.mem_append, List.not_mem_nil,
        or_false] at hmem
      rcases hmem with rfl | hmem | rfl | rfl
      · exact hwrapped.document.numbered _ _ hsave
      · exact Nat.le_trans (hexisting id hmem) hlast
      · exact hwrapped.document.numbered _ _ hrestore
      · exact Nat.le_trans hstamp hlast

theorem stampedContents (page : ObjectId) (stamp : Stamp) :
    (press.stampedContents page stamp).2.Steady layer ∧
      (Object.array (press.stampedContents page stamp).1).ListsWithin
        (press.stampedContents page stamp).2.document.lastNumber := by
  have hcontent : (press.stampContent stamp).2.Steady layer := hsteady.addContent _
  exact hcontent.arrange (hcontent.document.contentEntries page) (Nat.le_refl _)

theorem attach (page : ObjectId) (stamp : Stamp) : (press.attach page stamp).2.Steady layer := by
  obtain ⟨hplaced, hcontents⟩ := hsteady.stampedContents page stamp
  rw [Press.attach_eq]
  dsimp only
  split
  next document hchange =>
    obtain ⟨place, entries, hlocate, rfl⟩ := Document.change_eq_ok.1 hchange
    have hpage := (Document.get?_of_locate hlocate).1
    have hstart : (press.stampedContents page stamp).2.document.Overprints (· = place)
        (press.stampedContents page stamp).2.document :=
      .refl fun id hid => ⟨entries, hid ▸ hpage⟩
    refine hplaced.withDocument (hplaced.document.put ?_ ?_) (hstart.change
      hplaced.document.numbered hlocate rfl (samePage_stampedPage _ _) hchange)
    · exact hplaced.document.numbered place _ hpage
    · intro value hvalue
      rw [get?_stampedPage, if_pos rfl] at hvalue
      cases hvalue
      exact hcontents
  next => exact hplaced

/-- What the entries of a page show when a stamp is put under them or over them, in any document that
has the streams that are named. -/
theorem flatMap_arrange (existing : List Object) {stamp : ObjectId} {bytes : List UInt8}
    (hstamp : press.document.objects.get? stamp = some (.stream [] bytes)) {after : Document}
    (hafter : ∀ id data,
      (press.arrange existing stamp).2.document.objects.get? id = some (.stream [] data) →
      after.streamData id = data) :
    ((press.arrange existing stamp).1.filterMap Object.toReference?).flatMap after.streamData =
      laid layer existing.isEmpty
        ((existing.filterMap Object.toReference?).flatMap after.streamData) bytes := by
  rw [Press.arrange] at hafter ⊢
  rw [hsteady.layer] at hafter ⊢
  cases layer with
  | under =>
    have hbytes := hafter stamp bytes hstamp
    simp [laid, Object.toReference?, hbytes]
  | _ =>
    dsimp only at hafter ⊢
    by_cases hempty : existing.isEmpty
    · rw [if_pos hempty] at hafter ⊢
      have hbytes := hafter stamp bytes hstamp
      simp [laid, Object.toReference?, hempty, hbytes]
    · rw [if_neg hempty] at hafter ⊢
      obtain ⟨hwrapped, hwrappers⟩ := hsteady.useWrappers
      obtain ⟨hsave, hrestore⟩ := hwrapped.wrappers _ hwrappers
      have hover := press.useWrappers_overprints hsteady.document.numbered (.untouched _)
      have hkept := hover.get?_of_not_dictionary hsteady.document.numbered hstamp rfl
      have hsaved := hafter _ _ hsave
      have hrestored := hafter _ _ hrestore
      have hbytes := hafter _ _ hkept
      simp [laid, Object.toReference?, hempty, hsaved, hrestored, hbytes]

end Steps

end Steady

theorem Reaches.steady {start press : Press} {layer : Layer} (hstart : start.Steady layer)
    (hreaches : start.Reaches press) : press.Steady layer := by
  induction hreaches with
  | start => exact hstart
  | font font _ ih => exact ih.useFont font
  | text font text _ ih => exact ih.encodeText font text
  | picture picture _ ih => exact ih.usePicture picture
  | attach page stamp _ ih => exact ih.attach page stamp

theorem steady_start {document : Document} (hclosed : document.Closed) (layer : Layer) :
    Steady layer { document, layer } where
  layer := rfl
  document := hclosed.grounded
  wrappers _ hmem := by cases hmem

section Attaching

variable {layer : Layer} {press : Press} {page place : ObjectId} {entries : Dictionary}
  {stamp : Stamp}

theorem contents_attach (hnumbered : press.document.Numbered)
    (hpage : press.document.locate page = .ok (place, .dictionary entries)) :
    ((press.attach page stamp).2.document.dictionary? page).bind (Dictionary.get? "Contents") =
      some (.array (press.stampedContents page stamp).1) := by
  rw [dictionary?_attach hnumbered hpage rfl, Option.bind_some, get?_stampedPage, if_pos rfl]

/-- What was put into the document for a stamp is there when the stamp is attached. -/
theorem attach_overprints (stamp : Stamp) (hnumbered : press.document.Numbered)
    (hplaced : (press.stampedContents page stamp).2.document.Numbered)
    (hpage : press.document.locate page = .ok (place, .dictionary entries)) :
    (press.stampedContents page stamp).2.document.Overprints (· = place)
      (press.attach page stamp).2.document := by
  have hlocate : (press.stampedContents page stamp).2.document.locate page =
      .ok (place, .dictionary entries) := locate_stampedContents hnumbered hpage
  let placed := (press.stampedContents page stamp).2
  let written := stampedPage (press.stampedResources page stamp)
    (press.stampedContents page stamp).1
  have hchange : placed.document.change page written =
      .ok (placed.document.put place (.dictionary (written entries))) :=
    Document.change_eq_ok.2 ⟨place, entries, hlocate, rfl⟩
  have hstart : (press.stampedContents page stamp).2.document.Overprints (· = place)
      (press.stampedContents page stamp).2.document :=
    .refl fun id hid => ⟨entries, hid ▸ (Document.get?_of_locate hlocate).1⟩
  rw [attach_of_change hchange]
  exact hstart.change hplaced hlocate rfl (samePage_stampedPage _ _) hchange

/-- The content of the stamp itself changes nothing about what the page lists. -/
theorem stampedContents_eq (hgrounded : press.document.Grounded) (page : ObjectId)
    (stamp : Stamp) : press.stampedContents page stamp =
      (press.stampContent stamp).2.arrange (press.document.contentEntries page)
        (press.stampContent stamp).1 := by
  have hnumbered := hgrounded.numbered
  have hexisting : (press.stampContent stamp).2.document.contentEntries page =
      press.document.contentEntries page :=
    ((Document.Overprints.untouched _).add hnumbered _).1.contentEntries_eq hgrounded
      (press.dictionary?_stampContent stamp hnumbered page)
  rw [← hexisting]
  rfl

namespace Steady

variable (hsteady : press.Steady layer)
  (hpage : press.document.locate page = .ok (place, .dictionary entries))

include hsteady hpage

theorem pageContent_attach (stamp : Stamp) :
    (press.attach page stamp).2.document.pageContent page =
      laid layer (press.document.contentEntries page).isEmpty
        (press.document.listedContent page) (contentOf stamp.operations) := by
  have hgrounded := hsteady.document
  have hnumbered := hgrounded.numbered
  have hcontent : (press.stampContent stamp).2.Steady layer := hsteady.addContent _
  obtain ⟨hplaced, -⟩ := hsteady.stampedContents page stamp
  obtain ⟨-, hover, -⟩ := @attach_spec _ _ stamp _ _ hnumbered hpage
  have hstands := attach_overprints stamp hnumbered hplaced.document.numbered hpage
  have hstreams (id : ObjectId) (data : List UInt8)
      (hget : (press.stampedContents page stamp).2.document.objects.get? id =
        some (.stream [] data)) :
      (press.attach page stamp).2.document.streamData id = data := by
    have hkept := hstands.get?_of_not_dictionary hplaced.document.numbered hget rfl
    exact Document.streamData_of_get? hkept
  rw [stampedContents_eq hgrounded] at hstreams
  have hstamp : (press.stampContent stamp).2.document.objects.get? (press.stampContent stamp).1 =
      some (.stream [] (contentOf stamp.operations)) := get?_addContent ..
  have hlaid := hcontent.flatMap_arrange _ hstamp hstreams
  have hformer := hover.flatMap_streamData_eq hgrounded (hgrounded.contentEntries page)
  rw [hformer, ← stampedContents_eq hgrounded] at hlaid
  rw [Document.pageContent, contents_attach hnumbered hpage]
  exact hlaid

/-- The entries of a stamped page: those that it had, with others before and after them. -/
theorem contentEntries_attach (stamp : Stamp) : ∃ front back : List ObjectId, front ≠ [] ∧
    (press.attach page stamp).2.document.contentEntries page =
      front.map .reference ++ press.document.contentEntries page ++ back.map .reference := by
  have hgrounded := hsteady.document
  have hentries : (press.attach page stamp).2.document.contentEntries page =
      (press.stampedContents page stamp).1 := by
    rw [Document.contentEntries, contents_attach hgrounded.numbered hpage]
  rw [hentries, stampedContents_eq hgrounded, Press.arrange]
  split
  · exact ⟨[(press.stampContent stamp).1], [], by simp, by simp⟩
  · split
    next hempty =>
      rw [List.isEmpty_iff.1 hempty]
      exact ⟨[_], [], by simp, rfl⟩
    next => exact ⟨[_], [_, _], by simp, rfl⟩

theorem not_outOfReach_attach (stamp : Stamp) :
    ¬ (press.attach page stamp).2.document.OutOfReach page := by
  rintro ⟨id, count, last, hcontents, -⟩
  rw [contents_attach hsteady.document.numbered hpage] at hcontents
  cases hcontents

/-- Other pages show what they did, and stay as far from their content. -/
theorem pageContent_attach_of_ne (stamp : Stamp) {other otherPlace : ObjectId}
    {found : Dictionary} (hne : otherPlace ≠ place)
    (hother : press.document.locate other = .ok (otherPlace, .dictionary found)) :
    (press.attach page stamp).2.document.pageContent other =
        press.document.pageContent other ∧
      ((press.attach page stamp).2.document.OutOfReach other ↔
        press.document.OutOfReach other) ∧
      (press.attach page stamp).2.document.contentEntries other =
        press.document.contentEntries other := by
  have hgrounded := hsteady.document
  obtain ⟨-, hover, -⟩ := @attach_spec _ _ stamp _ _ hgrounded.numbered hpage
  have hsame : (press.attach page stamp).2.document.dictionary? other =
      press.document.dictionary? other := by
    rw [dictionary?_attach_of_ne hgrounded.numbered hpage hne hother,
      Document.dictionary?_of_locate hother]
  exact ⟨hover.pageContent_eq hgrounded hsame, hover.outOfReach_iff hgrounded hsame,
    hover.contentEntries_eq hgrounded hsame⟩

theorem locate_attach (stamp : Stamp) {other otherPlace : ObjectId} {found : Dictionary}
    (hother : press.document.locate other = .ok (otherPlace, .dictionary found)) :
    ∃ now, (press.attach page stamp).2.document.locate other =
      .ok (otherPlace, .dictionary now) := by
  have hnumbered := hsteady.document.numbered
  obtain ⟨-, hover, hwritten⟩ := @attach_spec _ _ stamp _ _ hnumbered hpage
  by_cases hplace : otherPlace = place
  · obtain ⟨now, hnow, -⟩ := hover.locate hnumbered hother hplace
    exact ⟨now, hnow⟩
  · have hget := (Document.get?_of_locate hother).1
    refine ⟨found, Document.locate_of_references (fun _ _ => hover.reference hnumbered) ?_ rfl hother⟩
    rw [hover.kept otherPlace (hnumbered otherPlace _ hget) hplace, hget]

end Steady

end Attaching

def attachAll (press : Press) (uses : List (ObjectId × Stamp)) : Press :=
  uses.foldl (fun press use => (press.attach use.1 use.2).2) press

section Runs

variable {layer : Layer} {press : Press} {page place : ObjectId} {entries : Dictionary}

/-- After any number of stamps, on this page and on others, a page shows those that were attached to
it, each laid on what it showed by then. -/
theorem pageContent_attachAll (hsteady : press.Steady layer) {uses : List (ObjectId × Stamp)}
    (huses : ∀ use ∈ uses, (press.document.dictionary? use.1).isSome)
    (hpage : press.document.locate page = .ok (place, .dictionary entries))
    (hreach : ¬ press.document.OutOfReach page) :
    (press.attachAll uses).document.pageContent page =
      laidAll layer (press.document.contentEntries page).isEmpty
        (press.document.pageContent page)
        ((uses.filter fun use => press.document.place? use.1 = some place).map (·.2)) := by
  induction uses generalizing press entries with
  | nil => rfl
  | cons use rest ih =>
    obtain ⟨target, stamp⟩ := use
    obtain ⟨other, hother⟩ := Option.isSome_iff_exists.1 (huses (target, stamp) List.mem_cons_self)
    obtain ⟨otherPlace, htarget⟩ := Document.locate_of_dictionary? hother
    have hafter := hsteady.attach target stamp
    obtain ⟨now, hnow⟩ := hsteady.locate_attach htarget stamp hpage
    have hplaces (use : ObjectId × Stamp) (hmem : use ∈ rest) :
        ((press.attach target stamp).2.document.dictionary? use.1).isSome ∧
          (press.attach target stamp).2.document.place? use.1 = press.document.place? use.1 := by
      obtain ⟨found, hfound⟩ :=
        Option.isSome_iff_exists.1 (huses use (List.mem_cons_of_mem _ hmem))
      obtain ⟨foundPlace, hlocate⟩ := Document.locate_of_dictionary? hfound
      obtain ⟨later, hlater⟩ := hsteady.locate_attach htarget stamp hlocate
      rw [Document.dictionary?_of_locate hlater, Document.place?_of_locate hlater,
        Document.place?_of_locate hlocate]
      exact ⟨rfl, rfl⟩
    have hfilter : (rest.filter fun use =>
        (press.attach target stamp).2.document.place? use.1 = some place) =
          rest.filter fun use => press.document.place? use.1 = some place :=
      List.filter_congr fun use hmem => by rw [(hplaces use hmem).2]
    show ((press.attach target stamp).2.attachAll rest).document.pageContent page = _
    rw [List.filter_cons, Document.place?_of_locate htarget]
    by_cases hplace : otherPlace = place
    · subst hplace
      cases Document.eq_of_locate hpage htarget
      obtain ⟨written, hwritten⟩ := hsteady.locate_attach htarget stamp htarget
      cases Document.eq_of_locate hnow hwritten
      obtain ⟨hcontent, hentries, hreaches⟩ := Document.content_congr
        ((Document.dictionary?_of_locate hpage).trans (Document.dictionary?_of_locate htarget).symm)
      obtain ⟨hcontentAfter, hentriesAfter, hreachesAfter⟩ := Document.content_congr
        ((Document.dictionary?_of_locate hnow).trans (Document.dictionary?_of_locate hwritten).symm)
      obtain ⟨front, back, hfront, hlisted⟩ := hsteady.contentEntries_attach htarget stamp
      have hlists : ((press.attach target stamp).2.document.contentEntries page).isEmpty = false := by
        rw [hentriesAfter, hlisted]
        simp [hfront]
      have hlaid := hsteady.pageContent_attach htarget stamp
      rw [Document.listedContent_eq (mt hreaches.2 hreach), ← hentries, ← hcontent,
        ← hcontentAfter] at hlaid
      have hnear := mt hreachesAfter.1 (hsteady.not_outOfReach_attach htarget stamp)
      rw [ih hafter (fun use hmem => (hplaces use hmem).1) hnow hnear, hlists, hlaid, hfilter,
        if_pos (by simp)]
      rfl
    · obtain ⟨hcontent, hreaches, hentries⟩ :=
        hsteady.pageContent_attach_of_ne htarget stamp (Ne.symm hplace) hpage
      rw [ih hafter (fun use hmem => (hplaces use hmem).1) hnow (mt hreaches.1 hreach), hcontent,
        hentries, hfilter, if_neg (by simpa using hplace)]

end Runs

end Press

/-- Attaching a stamp to a page, whatever the press did before: the page shows the stamp and what it
showed, its entries stay in their order, and every other page shows what it did. A page whose content
is out of reach showed nothing, and then shows what its entries lead to. -/
theorem attach_lays_content {document : Document} {layer : Layer} {press : Press}
    {page : ObjectId} {entries : Dictionary} (hclosed : document.Closed)
    (hreaches : Press.Reaches { document, layer } press)
    (hpage : press.document.dictionary? page = some entries) (stamp : Stamp) :
    let after := (press.attach page stamp).2.document
    let bare := (press.document.contentEntries page).isEmpty
    let bytes := contentOf stamp.operations
    (press.attach page stamp).1 = .ok () ∧
      (¬ press.document.OutOfReach page →
        after.pageContent page = laid layer bare (press.document.pageContent page) bytes) ∧
      (press.document.OutOfReach page → press.document.pageContent page = [] ∧
        after.pageContent page = laid layer bare (press.document.listedContent page) bytes) ∧
      ¬ after.OutOfReach page ∧
      (∃ front back : List ObjectId, after.contentEntries page =
        front.map .reference ++ press.document.contentEntries page ++ back.map .reference) ∧
      ∀ other found, press.document.dictionary? other = some found →
        press.document.locate other ≠ press.document.locate page →
        after.pageContent other = press.document.pageContent other ∧
          (after.OutOfReach other ↔ press.document.OutOfReach other) := by
  intro after bare bytes
  have hsteady := hreaches.steady (Press.steady_start hclosed layer)
  obtain ⟨place, hlocate⟩ := Document.locate_of_dictionary? hpage
  obtain ⟨hattach, -, -⟩ := @Press.attach_spec _ _ stamp _ _ hsteady.document.numbered hlocate
  have hcontent := hsteady.pageContent_attach hlocate stamp
  refine ⟨hattach, fun hreach => ?_, fun hreach => ?_, ?_, ?_, fun other found hfound hne => ?_⟩
  · rw [← Document.listedContent_eq hreach]
    exact hcontent
  · exact ⟨Document.pageContent_of_outOfReach hreach, hcontent⟩
  · exact hsteady.not_outOfReach_attach hlocate stamp
  · obtain ⟨front, back, -, hlisted⟩ := hsteady.contentEntries_attach hlocate stamp
    exact ⟨front, back, hlisted⟩
  · obtain ⟨otherPlace, hother⟩ := Document.locate_of_dictionary? hfound
    have hplace : otherPlace ≠ place := by
      rintro rfl
      cases Document.eq_of_locate hlocate hother
      exact hne (hother.trans hlocate.symm)
    obtain ⟨hsame, hreach, -⟩ := hsteady.pageContent_attach_of_ne hlocate stamp hplace hother
    exact ⟨hsame, hreach⟩

/-- A page with two stamps over it, and another page with which it shared its content. -/
theorem attach_lays_content_twice :
    let source := Document.ofObjects
      [(⟨1, 0⟩, .dictionary [("Type", .name "Page"), ("Contents", .reference ⟨3, 0⟩)]),
        (⟨2, 0⟩, .dictionary [("Type", .name "Page"), ("Contents", .reference ⟨3, 0⟩)]),
        (⟨3, 0⟩, .stream [] (ascii "n\n"))] []
    let stamp : Stamp := { operations := [{ operator := "h" }] }
    let start : Press := { document := source, layer := .over }
    let press := (start.attach ⟨1, 0⟩ stamp).2
    let after := (press.attach ⟨1, 0⟩ stamp).2.document
    source.Closed ∧ start.Reaches press ∧ (press.document.dictionary? ⟨1, 0⟩).isSome ∧
      ¬ press.document.OutOfReach ⟨1, 0⟩ ∧
      after.pageContent ⟨1, 0⟩ = ascii "q\nq\nn\n\nQ\nh\n\nQ\nh\n" ∧
      after.pageContent ⟨2, 0⟩ = ascii "n\n" := by
  intro source stamp start press after
  have hclosed : source.Closed := by
    refine ⟨Document.numbered_ofObjects _ _, fun id object hget => ?_⟩
    have hmem := SortedMap.mem_of_get?_ofList hget
    have hlast : source.lastNumber = 3 := by decide
    rw [hlast]
    simp only [List.mem_cons, Prod.mk.injEq, List.not_mem_nil, or_false] at hmem
    rcases hmem with ⟨-, rfl⟩ | ⟨-, rfl⟩ | ⟨-, rfl⟩ <;> simp [Object.Within]
  have hpage : (press.document.dictionary? ⟨1, 0⟩).isSome := by decide +kernel
  have hother : (press.document.dictionary? ⟨2, 0⟩).isSome := by decide +kernel
  obtain ⟨entries, hentries⟩ := Option.isSome_iff_exists.1 hpage
  obtain ⟨found, hfound⟩ := Option.isSome_iff_exists.1 hother
  have hreach : ¬ press.document.OutOfReach ⟨1, 0⟩ := by
    rintro ⟨id, count, last, hcontents, -⟩
    have hlist : ((press.document.dictionary? ⟨1, 0⟩).bind (Dictionary.get? "Contents")).bind
        Object.toReference? = none := by rfl
    rw [hcontents] at hlist
    cases hlist
  have hreaches : start.Reaches press := .attach _ _ .start
  have hplaces : press.document.place? ⟨2, 0⟩ ≠ press.document.place? ⟨1, 0⟩ := by decide +kernel
  obtain ⟨-, hlaid, -, -, -, hrest⟩ := attach_lays_content hclosed hreaches hentries stamp
  obtain ⟨hkept, -⟩ := hrest ⟨2, 0⟩ found hfound fun hsame =>
    hplaces (by rw [Document.place?, Document.place?, hsame])
  refine ⟨hclosed, hreaches, hpage, hreach, (hlaid hreach).trans ?_, hkept.trans ?_⟩
  · decide +kernel
  · decide +kernel

/-- A page whose content is as far away as references are followed showed nothing. In the list that it
gets with a stamp, the same content is near enough to be shown. -/
theorem content_appears_with_stamp :
    let chain := (List.range Document.referenceLimit).map fun index =>
      ((⟨index + 2, 0⟩ : ObjectId), Object.reference ⟨index + 3, 0⟩)
    let source := Document.ofObjects
      ((⟨1, 0⟩, .dictionary [("Type", .name "Page"), ("Contents", .reference ⟨2, 0⟩)]) ::
        (⟨130, 0⟩, .stream [] (ascii "n\n")) :: chain) []
    let press : Press := { document := source, layer := .under }
    let stamp : Stamp := { operations := [{ operator := "h" }] }
    source.Closed ∧ (source.dictionary? ⟨1, 0⟩).isSome ∧
      (press.attach ⟨1, 0⟩ stamp).1 = .ok () ∧
      (press.attach ⟨1, 0⟩ stamp).2.document.pageContent ⟨1, 0⟩ ≠
        contentOf stamp.operations ++ source.pageContent ⟨1, 0⟩ := by
  intro chain source press stamp
  have hclosed : source.Closed := by
    refine ⟨Document.numbered_ofObjects _ _, fun id object hget => ?_⟩
    have hmem := SortedMap.mem_of_get?_ofList hget
    have hlast : source.lastNumber = 130 := by decide +kernel
    rw [hlast]
    simp only [List.mem_cons, Prod.mk.injEq] at hmem
    rcases hmem with ⟨-, rfl⟩ | ⟨-, rfl⟩ | hmem
    · simp [Object.Within]
    · simp [Object.Within]
    · obtain ⟨index, hindex, heq⟩ := List.mem_map.1 hmem
      have hlt : index < 128 := List.mem_range.1 hindex
      cases heq
      refine Object.within_reference.2 ?_
      show index + 3 ≤ 130
      omega
  have hpage : (source.dictionary? ⟨1, 0⟩).isSome := by decide +kernel
  obtain ⟨entries, hentries⟩ := Option.isSome_iff_exists.1 hpage
  obtain ⟨place, hlocate⟩ := Document.locate_of_dictionary? hentries
  obtain ⟨hattach, -, -⟩ := @Press.attach_spec press _ stamp _ _ hclosed.numbered hlocate
  exact ⟨hclosed, hpage, hattach, by decide +kernel⟩

end Overprint.Pdf
