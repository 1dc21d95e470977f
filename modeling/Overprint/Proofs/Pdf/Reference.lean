import Overprint.Pdf.Document

/-!
# Following references

Where a number leads is settled by the references on the way: the object at the end is none itself.
So a document in which the same references stand leads to the same places, whatever has been written
there.
-/

namespace Overprint.Pdf.Document

variable {source current : Document} {id place : ObjectId} {object final : Object}

theorem toReference?_eq_none (hobject : ∀ target, object = .reference target → False) :
    object.toReference? = none := by
  cases object with
  | reference target => exact (hobject target rfl).elim
  | _ => rfl

theorem follow_of_not_reference (document : Document) (place? : Option ObjectId)
    (hobject : object.toReference? = none) (limit : Nat) :
    document.follow place? object limit = .ok (place?, object) := by
  cases object with
  | reference target => cases hobject
  | _ => cases limit <;> rfl

/-- Following references ends at an object that is none, in the place where it stands. -/
theorem follow_ends {limit : Nat} {place? end? : Option ObjectId}
    (hget : ∀ id ∈ place?, source.objects.get? id = some object)
    (hfollow : source.follow place? object limit = .ok (end?, final)) :
    final.toReference? = none ∧ ∀ id ∈ end?, source.objects.get? id = some final := by
  fun_induction follow source place? object limit with
  | case1 | case2 => cases hfollow
  | case3 place? target next limit hnext ih =>
    refine ih (fun id hid => ?_) hfollow
    cases hid
    exact hnext
  | case4 place? object limit hobject =>
    cases hfollow
    exact ⟨toReference?_eq_none hobject, hget⟩

theorem follow_reference {target : ObjectId} (hget : source.objects.get? target = some object)
    (place? : Option ObjectId) (limit : Nat) :
    source.follow place? (.reference target) (limit + 1) =
      source.follow (some target) object limit := by
  rw [follow.eq_def]
  simp only [hget]

theorem follow_absent {target : ObjectId} (hget : source.objects.get? target = none)
    (place? : Option ObjectId) (limit : Nat) :
    source.follow place? (.reference target) limit = .error (.absent target) := by
  rw [follow.eq_def]
  simp only [hget]

theorem follow_endless {target : ObjectId} (hget : source.objects.get? target = some object)
    (place? : Option ObjectId) :
    source.follow place? (.reference target) 0 = .error .endless := by
  rw [follow.eq_def]
  simp only [hget]

theorem isSome_of_follow {limit : Nat} {place? end? : Option ObjectId} (hsome : place?.isSome)
    (hfollow : source.follow place? object limit = .ok (end?, final)) : end?.isSome := by
  fun_induction follow source place? object limit with
  | case1 | case2 => cases hfollow
  | case3 place? target next limit hnext ih => exact ih rfl hfollow
  | case4 place? object limit hobject =>
    cases hfollow
    exact hsome

theorem locate_eq_ok : source.locate id = .ok (place, final) ↔
    ∃ object, source.objects.get? id = some object ∧
      source.follow (some id) object referenceLimit = .ok (some place, final) := by
  rw [locate]
  cases hget : source.objects.get? id with
  | none => simp only [reduceCtorEq, false_and, exists_false]
  | some object =>
    simp only [Option.some.injEq, exists_eq_left']
    cases hfollow : source.follow (some id) object referenceLimit with
    | error missing => simp [Bind.bind, Except.bind]
    | ok found =>
      obtain ⟨end?, found⟩ := found
      obtain ⟨reached, rfl⟩ := Option.isSome_iff_exists.1 (isSome_of_follow rfl hfollow)
      simp [Bind.bind, Except.bind, Pure.pure, Except.pure]

/-- The object that a number leads to is no reference, and stands in its place. -/
theorem get?_of_locate (hlocate : source.locate id = .ok (place, final)) :
    source.objects.get? place = some final ∧ final.toReference? = none := by
  obtain ⟨object, hget, hfollow⟩ := locate_eq_ok.1 hlocate
  have hstart : ∀ other ∈ some id, source.objects.get? other = some object := by
    intro other hother
    cases hother
    exact hget
  obtain ⟨hfinal, hplace⟩ := follow_ends hstart hfollow
  exact ⟨hplace place rfl, hfinal⟩

theorem eq_of_locate {other : ObjectId} {found : Object} (hlocate : source.locate id = .ok (place, final))
    (hother : source.locate other = .ok (place, found)) : found = final := by
  have hget := (get?_of_locate hlocate).1
  rw [(get?_of_locate hother).1] at hget
  exact Option.some.inj hget

/-- Where the references of a document lead in another one that has them too. -/
theorem follow_of_references
    (hreferences : ∀ id target, source.objects.get? id = some (.reference target) →
      current.objects.get? id = some (.reference target))
    {written : Object} (hplace : current.objects.get? place = some written)
    (hwritten : written.toReference? = none) {limit : Nat} {place? : Option ObjectId}
    (hstart : place? = some id) (hget : source.objects.get? id = some object)
    (hfollow : source.follow place? object limit = .ok (some place, final)) :
    ∃ start, current.objects.get? id = some start ∧
      current.follow (some id) start limit = .ok (some place, written) := by
  -- Every place on the way holds a reference, which is the same in both documents, but the last one.
  fun_induction follow source place? object limit generalizing id with
  | case1 | case2 => cases hfollow
  | case3 place? target next limit hnext ih =>
    obtain ⟨start, htarget, hrest⟩ := ih rfl hnext hfollow
    refine ⟨.reference target, hreferences id target hget, ?_⟩
    rw [follow_reference htarget]
    exact hrest
  | case4 place? object limit hobject =>
    cases hfollow
    cases hstart
    exact ⟨written, hplace, follow_of_not_reference current (some place) hwritten _⟩

/-- Where a number leads in a document that has all references of another one. -/
theorem locate_of_references
    (hreferences : ∀ id target, source.objects.get? id = some (.reference target) →
      current.objects.get? id = some (.reference target))
    {written : Object} (hplace : current.objects.get? place = some written)
    (hwritten : written.toReference? = none)
    (hlocate : source.locate id = .ok (place, final)) :
    current.locate id = .ok (place, written) := by
  obtain ⟨object, hget, hfollow⟩ := locate_eq_ok.1 hlocate
  obtain ⟨start, hstart, hcurrent⟩ :=
    follow_of_references hreferences hplace hwritten rfl hget hfollow
  exact locate_eq_ok.2 ⟨start, hstart, hcurrent⟩

theorem locate_of_dictionary? {entries : Dictionary} (hentries : source.dictionary? id = some entries) :
    ∃ place, source.locate id = .ok (place, .dictionary entries) := by
  obtain ⟨object, hobject, hdictionary⟩ := Option.bind_eq_some_iff.1 hentries
  rw [object?] at hobject
  split at hobject
  next place found hlocate =>
    cases hobject
    cases object with
    | dictionary other =>
      cases hdictionary
      exact ⟨place, hlocate⟩
    | _ => cases hdictionary
  next => cases hobject

theorem dictionary?_of_locate {entries : Dictionary}
    (hlocate : source.locate id = .ok (place, .dictionary entries)) :
    source.dictionary? id = some entries := by
  rw [dictionary?, object?, hlocate]
  rfl

end Overprint.Pdf.Document
