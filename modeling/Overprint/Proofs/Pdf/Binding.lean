import Overprint.Proofs.Pdf.Closed

/-!
# What the names of a page are bound to

The resources in force for a page bind names, category by category. A stamp brings its own names for
fonts and pictures and adds them to what the page has. As they are counted without a look at the page,
a name that the page has already is bound anew; every other one is bound as before.
-/

namespace Overprint.Pdf

def Stamp.names (stamp : Stamp) (category : String) : SortedMap String ObjectId :=
  if category = "Font" then stamp.fonts
  else if category = "XObject" then stamp.pictures
  else ∅

theorem Stamp.names_font (stamp : Stamp) : stamp.names "Font" = stamp.fonts := rfl

theorem Stamp.names_picture (stamp : Stamp) : stamp.names "XObject" = stamp.pictures := rfl

namespace Document

/-- The entries of an object, or of what it refers to. -/
def entries? (document : Document) (object : Object) : Option Dictionary :=
  (document.resolve object).toDictionary?

/-- What the resources in force for a page bind to a name in a category. -/
def binding? (document : Document) (page : ObjectId) (category name : String) : Option Object := do
  let object ← Dictionary.get? category (document.resources page)
  Dictionary.get? name (← document.entries? object)

variable {document other : Document} {id page place : ObjectId} {object : Object}

theorem entries?_reference : document.entries? (.reference id) = document.dictionary? id := by
  rw [entries?, resolve, dictionary?]
  cases document.object? id <;> rfl

theorem binding?_eq (document : Document) (page : ObjectId) (category name : String) :
    document.binding? page category name = Dictionary.get? name
      (((Dictionary.get? category (document.resources page)).bind document.entries?).getD []) := by
  rw [binding?]
  cases Dictionary.get? category (document.resources page) with
  | none => rfl
  | some object =>
    simp only [Option.bind_eq_bind, Option.bind_some]
    cases document.entries? object <;> rfl

theorem entries?_eq_of_dictionary? (hsame : ∀ id, other.dictionary? id = document.dictionary? id)
    (object : Object) : other.entries? object = document.entries? object := by
  cases object with
  | reference id => rw [entries?_reference, entries?_reference, hsame]
  | _ => rfl

theorem resources_eq_of_dictionary? (hsame : ∀ id, other.dictionary? id = document.dictionary? id)
    (page : ObjectId) : other.resources page = document.resources page := by
  have hinherited (node : Dictionary) (limit : Nat) :
      (other.inheritedFrom? "Resources" node limit).bind Object.toDictionary? =
        (document.inheritedFrom? "Resources" node limit).bind Object.toDictionary? := by
    induction limit generalizing node with
    | zero => rfl
    | succ limit ih =>
      rw [inheritedFrom?, inheritedFrom?]
      split
      next value hvalue => exact entries?_eq_of_dictionary? hsame value
      next =>
        split
        next parent hparent =>
          rw [hsame]
          cases document.dictionary? parent with
          | none => rfl
          | some above => exact ih above
        next => rfl
  rw [resources, resources, inherited?, inherited?, hsame]
  cases document.dictionary? page with
  | none => simp only [Option.bind_eq_bind, Option.bind_none]
  | some entries =>
    simp only [Option.bind_eq_bind, Option.bind_some]
    rw [hinherited]

theorem resources_of_own {entries resources : Dictionary}
    (hentries : document.dictionary? page = some entries)
    (hresources : Dictionary.get? "Resources" entries = some (.dictionary resources)) :
    document.resources page = resources := by
  have hinherited : document.inherited? page "Resources" = some (.dictionary resources) := by
    rw [inherited?, hentries, inheritanceLimit]
    simp only [Option.bind_eq_bind, Option.bind_some]
    rw [inheritedFrom?, hresources]
    rfl
  rw [Document.resources, hinherited]
  rfl

theorem dictionary?_eq (document : Document) (id : ObjectId) :
    document.dictionary? id = (document.objects.get? id).bind fun object =>
      (document.follow (some id) object referenceLimit).toOption.bind (·.2.toDictionary?) := by
  rw [dictionary?, object?, locate]
  cases document.objects.get? id with
  | none => rfl
  | some object =>
    dsimp only [Option.bind_some]
    cases document.follow (some id) object referenceLimit with
    | error missing => rfl
    | ok found => rfl

section Stream

variable {new : ObjectId} {entries : Dictionary} {data : List UInt8}
  (hnew : document.objects.get? new = none)
  (hadded : other.objects.get? new = some (.stream entries data))
  (hkept : ∀ id, id ≠ new → other.objects.get? id = document.objects.get? id)

include hnew hadded hkept

/-- A stream at an unused number makes no difference to which references lead to dictionaries: one
to that number led nowhere before, and does not lead to a dictionary now. -/
theorem toDictionary?_follow_of_stream (place? : Option ObjectId) (object : Object) (limit : Nat) :
    (other.follow place? object limit).toOption.bind (·.2.toDictionary?) =
      (document.follow place? object limit).toOption.bind (·.2.toDictionary?) := by
  have hfound {id : ObjectId} {object : Object}
      (hget : document.objects.get? id = some object) :
      other.objects.get? id = some object := by
    have hne : id ≠ new := by
      rintro rfl
      rw [hnew] at hget
      cases hget
    rw [hkept id hne, hget]
  fun_induction follow document place? object limit with
  | case1 limit place? target hnone =>
    by_cases htarget : target = new
    · subst htarget
      cases limit with
      | zero =>
        rw [follow_endless hadded]
        rfl
      | succ limit =>
        rw [follow_reference hadded, follow_of_not_reference other (some target) rfl]
        rfl
    · rw [← hkept target htarget] at hnone
      rw [follow_absent hnone]
  | case2 place? target next hnext => rw [follow_endless (hfound hnext)]
  | case3 place? target next limit hnext ih => rw [follow_reference (hfound hnext), ih]
  | case4 limit place? object hobject =>
    rw [follow_of_not_reference other place? (toReference?_eq_none hobject)]

theorem dictionary?_of_stream (id : ObjectId) : other.dictionary? id = document.dictionary? id := by
  rw [dictionary?_eq, dictionary?_eq]
  by_cases hid : id = new
  · rw [hid, hnew, hadded, Option.bind_some, follow_of_not_reference other (some new) rfl]
    rfl
  · rw [hkept id hid]
    exact Option.bind_congr fun object _ =>
      toDictionary?_follow_of_stream hnew hadded hkept (some id) object referenceLimit

end Stream

theorem dictionary?_add_stream (hnumbered : document.Numbered) (entries : Dictionary)
    (data : List UInt8) (id : ObjectId) :
    (document.add (.stream entries data)).2.dictionary? id = document.dictionary? id := by
  have hnew : document.objects.get? ⟨document.lastNumber + 1, 0⟩ = none :=
    hnumbered.get?_of_lt (Nat.lt_succ_self _)
  exact dictionary?_of_stream hnew (SortedMap.get?_insert_self ..)
    (fun _ hne => SortedMap.get?_insert_of_ne hne) id

end Document

section Names

variable {document : Document} {names : SortedMap String ObjectId}

/-- Names written into a dictionary one after the other are what is found there, where they are. -/
theorem get?_foldl_set (names : SortedMap String ObjectId) (old : Dictionary) (name : String) :
    Dictionary.get? name (names.entries.foldl
      (fun entries (name, id) => Dictionary.set name (.reference id) entries) old) =
      match names.get? name with
      | some id => some (.reference id)
      | none => Dictionary.get? name old := by
  have hfold (entries : List (String × ObjectId))
      (hsorted : entries.Pairwise fun left right => compare left.1 right.1 = .lt)
      (old : Dictionary) : Dictionary.get? name (entries.foldl
        (fun entries (name, id) => Dictionary.set name (.reference id) entries) old) =
        match SortedMap.find? name entries with
        | some id => some (.reference id)
        | none => Dictionary.get? name old := by
    induction entries generalizing old with
    | nil => rfl
    | cons entry rest ih =>
      obtain ⟨hentry, hrest⟩ := List.pairwise_cons.1 hsorted
      rw [List.foldl_cons, ih hrest, SortedMap.find?]
      dsimp only
      by_cases hname : name = entry.1
      · subst hname
        rw [SortedMap.find?_eq_none_of_forall hentry, if_pos (by simp), Dictionary.get?_set,
          if_pos rfl]
      · have hne : compare name entry.1 ≠ .eq := fun heq =>
          hname (Std.LawfulEqCmp.eq_of_compare heq)
        rw [if_neg hne, Dictionary.get?_set, if_neg (Ne.symm hname)]
  exact hfold names.entries names.sorted old

theorem addNames_of_empty (hnames : names.entries = []) (category : String)
    (resources : Dictionary) : addNames document category names resources = resources := by
  rw [addNames, if_pos hnames]

theorem get?_addNames_of_ne {category other : String} (hne : other ≠ category)
    (resources : Dictionary) :
    Dictionary.get? other (addNames document category names resources) =
      Dictionary.get? other resources := by
  rw [addNames]
  split
  · rfl
  · rw [Dictionary.get?_set, if_neg (Ne.symm hne)]

/-- A category with added names binds them, and every other name as before. -/
theorem get?_addNames (hnames : names.entries ≠ []) (category : String)
    (resources : Dictionary) :
    ∃ new, Dictionary.get? category (addNames document category names resources) =
        some (.dictionary new) ∧
      ∀ name, Dictionary.get? name new =
        match names.get? name with
        | some id => some (.reference id)
        | none => Dictionary.get? name
          (((Dictionary.get? category resources).bind document.entries?).getD []) := by
  rw [addNames, if_neg hnames]
  refine ⟨_, ?_, get?_foldl_set names _⟩
  rw [Dictionary.get?_set, if_pos rfl]
  rfl

end Names

namespace Press

variable (press : Press) (page : ObjectId) (stamp : Stamp)

theorem get?_mergedResources_of_empty {category : String}
    (hnames : (stamp.names category).entries = []) :
    Dictionary.get? category (press.mergedResources page stamp) =
      Dictionary.get? category (press.document.resources page) := by
  rw [mergedResources]
  by_cases hfont : category = "Font"
  · subst hfont
    rw [Stamp.names_font] at hnames
    rw [get?_addNames_of_ne (by decide), addNames_of_empty hnames]
  · by_cases hpicture : category = "XObject"
    · subst hpicture
      rw [Stamp.names_picture] at hnames
      rw [addNames_of_empty hnames, get?_addNames_of_ne (by decide)]
    · rw [get?_addNames_of_ne hpicture, get?_addNames_of_ne hfont]

/-- A category that the stamp has names in binds these, and every other name as before. -/
theorem get?_mergedResources {category : String}
    (hnames : (stamp.names category).entries ≠ []) :
    ∃ new, Dictionary.get? category (press.mergedResources page stamp) =
        some (.dictionary new) ∧
      ∀ name, Dictionary.get? name new =
        match (stamp.names category).get? name with
        | some id => some (.reference id)
        | none => press.document.binding? page category name := by
  rw [mergedResources]
  by_cases hfont : category = "Font"
  · subst hfont
    obtain ⟨new, hnew, hget⟩ := @get?_addNames press.document _ hnames "Font"
      (press.document.resources page)
    refine ⟨new, ?_, fun name => ?_⟩
    · rw [get?_addNames_of_ne (by decide)]
      exact hnew
    · rw [hget, Document.binding?_eq]
  · by_cases hpicture : category = "XObject"
    · subst hpicture
      obtain ⟨new, hnew, hget⟩ := @get?_addNames press.document _ hnames "XObject"
        (addNames press.document "Font" stamp.fonts (press.document.resources page))
      refine ⟨new, hnew, fun name => ?_⟩
      rw [hget, Document.binding?_eq, get?_addNames_of_ne (by decide)]
    · exfalso
      refine hnames ?_
      rw [Stamp.names, if_neg hfont, if_neg hpicture]
      rfl

theorem dictionary?_stampContent (hnumbered : press.document.Numbered) (id : ObjectId) :
    (press.stampContent stamp).2.document.dictionary? id = press.document.dictionary? id :=
  Document.dictionary?_add_stream hnumbered [] _ id

theorem resources_stampContent (hnumbered : press.document.Numbered) :
    (press.stampContent stamp).2.document.resources page = press.document.resources page :=
  Document.resources_eq_of_dictionary? (press.dictionary?_stampContent stamp hnumbered) page

theorem binding?_stampContent (hnumbered : press.document.Numbered) (category name : String) :
    (press.stampContent stamp).2.document.binding? page category name =
      press.document.binding? page category name := by
  rw [Document.binding?, Document.binding?, press.resources_stampContent page stamp hnumbered]
  have hsame := press.dictionary?_stampContent stamp hnumbered
  simp only [Document.entries?_eq_of_dictionary? hsame]

def stampedResources : Dictionary :=
  (press.stampContent stamp).2.mergedResources page stamp

variable {press page stamp} {place : ObjectId} {entries : Dictionary} {object : Object}

theorem locate_stampedContents (hnumbered : press.document.Numbered)
    (hpage : press.document.locate page = .ok (place, .dictionary entries)) :
    (press.stampedContents page stamp).2.document.locate page =
      .ok (place, .dictionary entries) := by
  have hkept := press.stampedContents_overprints hnumbered (.untouched _) page stamp
  have hget := (Document.get?_of_locate hpage).1
  refine Document.locate_of_references (fun _ _ => hkept.reference hnumbered) ?_ rfl hpage
  rw [hkept.kept place (hnumbered place _ hget) id, hget]

/-- Attaching a stamp to a page that is a dictionary succeeds. It writes the dictionary anew, with
other resources and another content, and every other object stays. -/
theorem attach_spec (hnumbered : press.document.Numbered)
    (hpage : press.document.locate page = .ok (place, .dictionary entries)) :
    (press.attach page stamp).1 = .ok () ∧
      press.document.Overprints (· = place) (press.attach page stamp).2.document ∧
      (press.attach page stamp).2.document.locate page = .ok (place, .dictionary
        (stampedPage (press.stampedResources page stamp) (press.stampedContents page stamp).1
          entries)) := by
  let placed := (press.stampedContents page stamp).2
  let written := stampedPage (press.stampedResources page stamp)
    (press.stampedContents page stamp).1
  have hstart : press.document.Overprints (· = place) press.document := by
    refine .refl fun id hid => ?_
    rw [hid]
    exact ⟨entries, (Document.get?_of_locate hpage).1⟩
  have hchange : placed.document.change page written =
      .ok (placed.document.put place (.dictionary (written entries))) :=
    Document.change_eq_ok.2 ⟨place, entries, locate_stampedContents hnumbered hpage, rfl⟩
  have hover : press.document.Overprints (· = place)
      (placed.document.put place (.dictionary (written entries))) :=
    (press.stampedContents_overprints hnumbered hstart page stamp).change hnumbered hpage rfl
      (samePage_stampedPage _ _) hchange
  rw [attach_of_change hchange]
  refine ⟨rfl, hover, ?_⟩
  exact Document.locate_of_references (fun _ _ => hover.reference hnumbered)
    (SortedMap.get?_insert_self ..) rfl hpage

theorem resources_attach (hnumbered : press.document.Numbered)
    (hpage : press.document.locate page = .ok (place, .dictionary entries)) :
    (press.attach page stamp).2.document.resources page = press.stampedResources page stamp := by
  obtain ⟨-, -, hlocate⟩ := @attach_spec _ _ stamp _ _ hnumbered hpage
  refine Document.resources_of_own (Document.dictionary?_of_locate hlocate) ?_
  rw [get?_stampedPage, if_neg (by decide), if_pos rfl]

/-- The content of a stamped page has the content of the stamp, which has a new number. -/
theorem reference_mem_stampedContents : Object.reference ⟨press.document.lastNumber + 1, 0⟩ ∈
    (press.stampedContents page stamp).1 := by
  show _ ∈ ((press.stampContent stamp).2.arrange
    ((press.stampContent stamp).2.document.contentEntries page)
    ⟨press.document.lastNumber + 1, 0⟩).1
  rw [arrange]
  split
  · exact List.mem_cons_self
  · split
    · exact List.mem_cons_self
    · simp

theorem ne_stampedContents (hwithin : object.Within press.document.lastNumber) :
    object ≠ .array (press.stampedContents page stamp).1 := by
  rintro rfl
  have hle := Object.within_reference.1
    (Object.within_array.1 hwithin _ reference_mem_stampedContents)
  dsimp only at hle
  omega

theorem dictionary?_attach_of_ne (hnumbered : press.document.Numbered)
    (hpage : press.document.locate page = .ok (place, .dictionary entries))
    {id other : ObjectId} {found : Dictionary} (hne : other ≠ place)
    (hfound : press.document.locate id = .ok (other, .dictionary found)) :
    (press.attach page stamp).2.document.dictionary? id = some found := by
  obtain ⟨-, hover, -⟩ := @attach_spec _ _ stamp _ _ hnumbered hpage
  have hget := (Document.get?_of_locate hfound).1
  have hkept : (press.attach page stamp).2.document.objects.get? other =
      some (.dictionary found) := by
    rw [hover.kept other (hnumbered other _ hget) hne, hget]
  exact Document.dictionary?_of_locate
    (Document.locate_of_references (fun _ _ => hover.reference hnumbered) hkept rfl hfound)

theorem dictionary?_attach (hnumbered : press.document.Numbered)
    (hpage : press.document.locate page = .ok (place, .dictionary entries))
    {id : ObjectId} (hid : press.document.locate id = press.document.locate page) :
    (press.attach page stamp).2.document.dictionary? id = some
      (stampedPage (press.stampedResources page stamp) (press.stampedContents page stamp).1
        entries) := by
  obtain ⟨-, hover, hlocate⟩ := @attach_spec _ _ stamp _ _ hnumbered hpage
  have hwritten := (Document.get?_of_locate hlocate).1
  rw [hpage] at hid
  exact Document.dictionary?_of_locate
    (Document.locate_of_references (fun _ _ => hover.reference hnumbered) hwritten rfl hid)

end Press

end Overprint.Pdf
