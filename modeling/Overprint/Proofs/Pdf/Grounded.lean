import Overprint.Proofs.Pdf.Content

/-!
# Content that refers to nothing beyond a document

A stamp may name fonts and pictures with numbers that are not in use, and then the document refers to
numbers beyond its own. Its content does not: no reference, no item of a list and no entry for content
has such a number. That is enough for the content to stay what it is while objects are added and
dictionaries of pages are written.
-/

namespace Overprint.Pdf

/-- The numbers that an object leads to as content are up to a bound. -/
def Object.ListsWithin (last : Nat) : Object → Prop
  | .reference id => id.number ≤ last
  | .array items => ∀ id ∈ items.filterMap Object.toReference?, id.number ≤ last
  | _ => True

/-- The numbers that an object leads to as content, itself or as the dictionary of a page. -/
def Object.Grounded (last : Nat) : Object → Prop
  | .dictionary entries =>
    ∀ value, Dictionary.get? "Contents" entries = some value → value.ListsWithin last
  | object => object.ListsWithin last

namespace Object

variable {last later : Nat} {object : Object}

theorem ListsWithin.mono (hle : last ≤ later) (hlists : object.ListsWithin last) :
    object.ListsWithin later := by
  cases object with
  | reference id => exact Nat.le_trans hlists hle
  | array items => exact fun id hmem => Nat.le_trans (hlists id hmem) hle
  | _ => trivial

theorem Grounded.listsWithin (hgrounded : object.Grounded last) : object.ListsWithin last := by
  cases object with
  | dictionary => trivial
  | _ => exact hgrounded

theorem Grounded.mono (hle : last ≤ later) (hgrounded : object.Grounded last) :
    object.Grounded later := by
  cases object with
  | dictionary entries => exact fun value hvalue => (hgrounded value hvalue).mono hle
  | reference | array => exact hgrounded.listsWithin.mono hle
  | _ => trivial

theorem grounded_stream (last : Nat) (entries : Dictionary) (data : List UInt8) :
    (stream entries data).Grounded last :=
  trivial

theorem toReference?_eq_some {id : ObjectId} (hobject : object.toReference? = some id) :
    object = .reference id := by
  cases object with
  | reference => cases hobject; rfl
  | _ => cases hobject

theorem Within.listsWithin (hwithin : object.Within last) : object.ListsWithin last := by
  cases object with
  | reference id => exact within_reference.1 hwithin
  | array items =>
    intro id hmem
    obtain ⟨item, hitem, hid⟩ := List.mem_filterMap.1 hmem
    rw [toReference?_eq_some hid] at hitem
    exact within_reference.1 (within_array.1 hwithin _ hitem)
  | _ => trivial

theorem Within.grounded (hwithin : object.Within last) : object.Grounded last := by
  cases object with
  | dictionary entries =>
    exact fun value hvalue => ((within_dictionary.1 hwithin).get? hvalue).listsWithin
  | reference | array => exact hwithin.listsWithin
  | _ => trivial

end Object

namespace Document

/-- No object has a number above the last one in use, and none leads to one as content. -/
structure Grounded (document : Document) : Prop where
  numbered : document.Numbered
  objects : ∀ id object, document.objects.get? id = some object →
    object.Grounded document.lastNumber

theorem Closed.grounded {document : Document} (hclosed : document.Closed) : document.Grounded where
  numbered := hclosed.numbered
  objects id object hget := (hclosed.within id object hget).grounded

namespace Grounded

variable {document : Document} (hgrounded : document.Grounded)

include hgrounded

theorem reserve : document.reserve.2.Grounded where
  numbered := hgrounded.numbered.reserve
  objects id object hget := (hgrounded.objects id object hget).mono (Nat.le_succ _)

theorem put {id : ObjectId} {object : Object} (hid : id.number ≤ document.lastNumber)
    (hobject : object.Grounded document.lastNumber) : (document.put id object).Grounded where
  numbered := hgrounded.numbered.put hid object
  objects := SortedMap.forall_get?_insert hgrounded.objects hobject

theorem add {object : Object} (hobject : object.Grounded (document.lastNumber + 1)) :
    (document.add object).2.Grounded :=
  hgrounded.reserve.put (Nat.le_refl _) hobject

theorem addPicture (picture : Picture) : (document.addPicture picture).2.Grounded := by
  rw [Document.addPicture]
  split
  · exact hgrounded.add (Object.grounded_stream ..)
  · exact hgrounded.add (Object.grounded_stream ..)
  · exact (hgrounded.add (Object.grounded_stream ..)).add (Object.grounded_stream ..)

theorem object? {id : ObjectId} {object : Object} (hobject : document.object? id = some object) :
    object.Grounded document.lastNumber := by
  rw [Document.object?] at hobject
  split at hobject
  next place found hlocate =>
    cases hobject
    exact hgrounded.objects place object (get?_of_locate hlocate).1
  next => cases hobject

theorem contents {page : ObjectId} {entry : Object}
    (hentry : (document.dictionary? page).bind (Dictionary.get? "Contents") = some entry) :
    entry.ListsWithin document.lastNumber := by
  obtain ⟨entries, hentries, hvalue⟩ := Option.bind_eq_some_iff.1 hentry
  obtain ⟨object, hobject, hdictionary⟩ := Option.bind_eq_some_iff.1 hentries
  have hobjectGrounded := hgrounded.object? hobject
  cases object with
  | dictionary other =>
    cases hdictionary
    exact hobjectGrounded entry hvalue
  | _ => cases hdictionary

theorem contentEntries (page : ObjectId) :
    (Object.array (document.contentEntries page)).ListsWithin document.lastNumber := by
  rw [Document.contentEntries]
  split
  next items hitems => exact hgrounded.contents hitems
  next id hid =>
    split
    next items hitems => exact (hgrounded.object? hitems).listsWithin
    next =>
      intro other hmem
      cases List.mem_singleton.1 hmem
      exact hgrounded.contents hid
  next => exact fun _ hmem => absurd hmem List.not_mem_nil

theorem streamsOf {object : Object} (hobject : object.ListsWithin document.lastNumber)
    (limit : Nat) : ∀ id ∈ document.streamsOf object limit, id.number ≤ document.lastNumber := by
  fun_induction Document.streamsOf document object limit with
  | case1 | case6 => exact fun _ hmem => absurd hmem List.not_mem_nil
  | case2 | case3 =>
    intro other hmem
    cases List.mem_singleton.1 hmem
    exact hobject
  | case4 limit id next _ hget ih => exact ih (hgrounded.objects id next hget).listsWithin
  | case5 => exact hobject

theorem leads {count : Nat} {id last : ObjectId} (hleads : document.Leads count id last)
    (hid : id.number ≤ document.lastNumber) : last.number ≤ document.lastNumber := by
  induction hleads with
  | here id => exact hid
  | @next count id target last hget _ ih => exact ih (hgrounded.objects id _ hget).listsWithin

end Grounded

namespace Overprints

variable {pages : ObjectId → Prop} {source current : Document} {id page : ObjectId}
  {object final : Object}
  (hover : source.Overprints pages current)

include hover

/-- What is at a number in use: what was there, or the dictionary of a page anew. -/
theorem get?_cases (hid : id.number ≤ source.lastNumber) :
    current.objects.get? id = source.objects.get? id ∨
      ∃ old new, source.objects.get? id = some (.dictionary old) ∧
        current.objects.get? id = some (.dictionary new) := by
  by_cases hpage : pages id
  · obtain ⟨old, new, hold, hnew, -⟩ := hover.page id hpage
    exact .inr ⟨old, new, hold, hnew⟩
  · exact .inl (hover.kept id hid hpage)

section Content

variable (hgrounded : source.Grounded)

include hgrounded

theorem follow_iff {place? end? : Option ObjectId} {limit : Nat}
    (hobject : object.ListsWithin source.lastNumber) (hfinal : final.toDictionary? = none) :
    current.follow place? object limit = .ok (end?, final) ↔
      source.follow place? object limit = .ok (end?, final) := by
  fun_induction follow source place? object limit with
  | case1 limit place? target hnone =>
    rcases hover.get?_cases hobject with hsame | ⟨old, new, hold, -⟩
    · rw [follow_absent (hsame.trans hnone)]
    · rw [hnone] at hold
      cases hold
  | case2 place? target next hnext =>
    rcases hover.get?_cases hobject with hsame | ⟨old, new, -, hnew⟩
    · rw [follow_endless (hsame.trans hnext)]
    · rw [follow_endless hnew]
  | case3 place? target next limit hnext ih =>
    rcases hover.get?_cases hobject with hsame | ⟨old, new, hold, hnew⟩
    · rw [follow_reference (hsame.trans hnext)]
      exact ih (hgrounded.objects target next hnext).listsWithin
    · rw [hnext] at hold
      cases hold
      have hends {document : Document} {entries : Dictionary} :
          document.follow (some target) (.dictionary entries) limit ≠ .ok (end?, final) := by
        rw [follow_of_not_reference document _ rfl]
        rintro ⟨⟩
        cases hfinal
      rw [follow_reference hnew]
      exact iff_of_false hends hends
  | case4 limit place? object hnone =>
    rw [follow_of_not_reference current place? (toReference?_eq_none hnone)]

theorem object?_iff (hid : id.number ≤ source.lastNumber) (hfinal : final.toDictionary? = none) :
    current.object? id = some final ↔ source.object? id = some final := by
  rw [object?_eq_some, object?_eq_some]
  exact exists_congr fun end? => hover.follow_iff hgrounded hid hfinal

theorem streamData_eq (hid : id.number ≤ source.lastNumber) :
    current.streamData id = source.streamData id := by
  have hiff (entries : Dictionary) (data : List UInt8) :
      current.object? id = some (.stream entries data) ↔
        source.object? id = some (.stream entries data) :=
    hover.object?_iff hgrounded hid rfl
  by_cases hstream : ∃ entries data, source.object? id = some (.stream entries data)
  · obtain ⟨entries, data, hobject⟩ := hstream
    rw [streamData_of_object? hobject, streamData_of_object? ((hiff entries data).2 hobject)]
  · have hnone (entries : Dictionary) (data : List UInt8) :
        source.object? id ≠ some (.stream entries data) := fun hobject =>
      hstream ⟨entries, data, hobject⟩
    rw [streamData_eq_nil hnone, streamData_eq_nil fun entries data hobject =>
      hnone entries data ((hiff entries data).1 hobject)]

theorem flatMap_streamData_eq {ids : List ObjectId}
    (hids : ∀ id ∈ ids, id.number ≤ source.lastNumber) :
    ids.flatMap current.streamData = ids.flatMap source.streamData := by
  rw [List.flatMap_def, List.flatMap_def]
  exact congrArg List.flatten
    (List.map_congr_left fun id hmem => hover.streamData_eq hgrounded (hids id hmem))

theorem streamsOf_eq (hobject : object.ListsWithin source.lastNumber) (limit : Nat) :
    current.streamsOf object limit = source.streamsOf object limit := by
  induction limit generalizing object with
  | zero => rfl
  | succ limit ih =>
    cases object with
    | reference id =>
      rw [streamsOf_succ, streamsOf_succ]
      rcases hover.get?_cases hobject with hsame | ⟨old, new, hold, hnew⟩
      · rw [hsame]
        cases hget : source.objects.get? id with
        | none => rfl
        | some next =>
          cases next with
          | stream => rfl
          | _ => exact ih (hgrounded.objects id _ hget).listsWithin
      · rw [hold, hnew]
        cases limit <;> rfl
    | _ => rfl

theorem contentEntries_eq (hsame : current.dictionary? page = source.dictionary? page) :
    current.contentEntries page = source.contentEntries page := by
  rw [contentEntries, contentEntries, hsame]
  cases hcontents : (source.dictionary? page).bind (Dictionary.get? "Contents") with
  | none => rfl
  | some entry =>
    cases entry with
    | reference id =>
      have hiff (items : List Object) : current.object? id = some (.array items) ↔
          source.object? id = some (.array items) :=
        hover.object?_iff hgrounded (hgrounded.contents hcontents) rfl
      dsimp only
      split
      next items hitems => rw [(hiff items).1 hitems]
      next hnone =>
        split
        next items hitems => exact (hnone items ((hiff items).2 hitems)).elim
        next => rfl
    | _ => rfl

theorem pageContent_eq (hsame : current.dictionary? page = source.dictionary? page) :
    current.pageContent page = source.pageContent page := by
  cases hcontents : (source.dictionary? page).bind (Dictionary.get? "Contents") with
  | none => rw [pageContent, pageContent, hsame, hcontents]
  | some entry =>
    have hentry := hgrounded.contents hcontents
    rw [pageContent, pageContent, hsame, hcontents]
    dsimp only
    rw [hover.streamsOf_eq hgrounded hentry]
    exact hover.flatMap_streamData_eq hgrounded (hgrounded.streamsOf hentry _)

theorem leads_iff {count : Nat} {last : ObjectId} (hid : id.number ≤ source.lastNumber) :
    current.Leads count id last ↔ source.Leads count id last := by
  constructor
  · intro hleads
    induction hleads with
    | here id => exact .here id
    | @next count id target last hget _ ih =>
      rcases hover.get?_cases hid with hsame | ⟨old, new, -, hnew⟩
      · rw [hsame] at hget
        exact .next hget (ih (hgrounded.objects id _ hget).listsWithin)
      · rw [hget] at hnew
        cases hnew
  · intro hleads
    induction hleads with
    | here id => exact .here id
    | @next count id target last hget _ ih =>
      exact .next (hover.reference hgrounded.numbered hget)
        (ih (hgrounded.objects id _ hget).listsWithin)

theorem get?_iff (hid : id.number ≤ source.lastNumber) (hfinal : final.toDictionary? = none) :
    current.objects.get? id = some final ↔ source.objects.get? id = some final := by
  refine ⟨fun hget => ?_, fun hget => hover.get?_of_not_dictionary hgrounded.numbered hget hfinal⟩
  rcases hover.get?_cases hid with hsame | ⟨old, new, -, hnew⟩
  · rw [← hsame, hget]
  · rw [hget] at hnew
    cases hnew
    cases hfinal

/-- A page whose dictionary stays is as far from its content as it was. -/
theorem outOfReach_iff (hsame : current.dictionary? page = source.dictionary? page) :
    current.OutOfReach page ↔ source.OutOfReach page := by
  rw [OutOfReach, OutOfReach, hsame]
  refine exists_congr fun id => exists_congr fun count => exists_congr fun last => ?_
  refine and_congr_right fun hcontents => ?_
  have hid : id.number ≤ source.lastNumber := hgrounded.contents hcontents
  rw [hover.leads_iff hgrounded hid]
  refine and_congr_right fun hleads => ?_
  have hlast := hgrounded.leads hleads hid
  have hstream (entries : Dictionary) (data : List UInt8) :
      current.objects.get? last = some (.stream entries data) ↔
        source.objects.get? last = some (.stream entries data) :=
    hover.get?_iff hgrounded hlast rfl
  have harray (items : List Object) : current.objects.get? last = some (.array items) ↔
      source.objects.get? last = some (.array items) :=
    hover.get?_iff hgrounded hlast rfl
  simp only [hstream, harray]

end Content

end Overprints

end Document

end Overprint.Pdf
