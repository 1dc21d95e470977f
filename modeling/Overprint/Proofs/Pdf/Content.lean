import Overprint.Proofs.Pdf.Closed

/-!
# What a page shows

The content of a page is read in two ways. A reader follows the reference in the page's entry step by
step, up to a limit; whoever rewrites the entry looks at what the reference stands for, and takes over
the list it finds. Following a list is a step too, so the reader gives up one or two steps earlier. But
for pages whose content is exactly so far away, both ways lead to the same streams.

Printing over a document leaves the streams and lists that it has, so what refers to them only shows
what it did.
-/

namespace Overprint.Pdf

namespace Document

inductive Leads (document : Document) : Nat → ObjectId → ObjectId → Prop
  | here (id : ObjectId) : document.Leads 0 id id
  | next {count : Nat} {id target last : ObjectId}
    (hget : document.objects.get? id = some (.reference target))
    (hrest : document.Leads count target last) : document.Leads (count + 1) id last

/-- What the entries that a page lists as its content show. -/
def listedContent (document : Document) (page : ObjectId) : List UInt8 :=
  ((document.contentEntries page).filterMap Object.toReference?).flatMap document.streamData

/-- The content of a page is a stream as many references away as are ever followed, or a list that is
so far away or one reference less. -/
def OutOfReach (document : Document) (page : ObjectId) : Prop :=
  ∃ id count last,
    (document.dictionary? page).bind (Dictionary.get? "Contents") = some (.reference id) ∧
    document.Leads count id last ∧
    ((∃ entries data, document.objects.get? last = some (.stream entries data)) ∧
        count = referenceLimit ∨
      (∃ items, document.objects.get? last = some (.array items)) ∧
        (count + 1 = referenceLimit ∨ count = referenceLimit))

section Chains

variable {document : Document} {id last : ObjectId} {count : Nat} {object : Object}

/-- Where a chain of references goes on is all that counts for following it. -/
theorem Leads.follow (hleads : document.Leads count id last) (place? : Option ObjectId)
    (limit : Nat) : ∃ end?, document.follow place? (.reference id) (limit + count) =
      document.follow end? (.reference last) limit := by
  induction hleads generalizing place? with
  | here id => exact ⟨place?, rfl⟩
  | @next count id target last hget hrest ih =>
    obtain ⟨end?, hend⟩ := ih (some id)
    refine ⟨end?, ?_⟩
    show document.follow place? (.reference id) (limit + count + 1) = _
    rw [follow_reference hget, hend]

theorem object?_eq_follow (document : Document) (id : ObjectId) : document.object? id =
    (document.follow none (.reference id) (referenceLimit + 1)).toOption.map (·.2) := by
  rw [object?, locate]
  cases hget : document.objects.get? id with
  | none =>
    rw [follow_absent hget]
    rfl
  | some object =>
    rw [follow_reference hget]
    dsimp only
    cases document.follow (some id) object referenceLimit with
    | error missing => rfl
    | ok found => rfl

theorem object?_eq_some : document.object? id = some object ↔
    ∃ end?, document.follow none (.reference id) (referenceLimit + 1) = .ok (end?, object) := by
  rw [object?_eq_follow]
  cases document.follow none (.reference id) (referenceLimit + 1) with
  | error missing => simp [Except.toOption]
  | ok found =>
    obtain ⟨end?, found⟩ := found
    simp [Except.toOption]

theorem Leads.object?_eq_some (hleads : document.Leads count id last)
    (hcount : count ≤ referenceLimit) (hget : document.objects.get? last = some object)
    (hobject : object.toReference? = none) : document.object? id = some object := by
  obtain ⟨rest, hrest⟩ := Nat.le.dest hcount
  obtain ⟨end?, hend⟩ := hleads.follow none (rest + 1)
  have hlimit : referenceLimit + 1 = rest + 1 + count := by omega
  rw [object?_eq_follow, hlimit, hend, follow_reference hget,
    follow_of_not_reference document _ hobject]
  rfl

theorem Leads.object?_of_absent (hleads : document.Leads count id last)
    (hcount : count ≤ referenceLimit) (hget : document.objects.get? last = none) :
    document.object? id = none := by
  obtain ⟨rest, hrest⟩ := Nat.le.dest hcount
  obtain ⟨end?, hend⟩ := hleads.follow none (rest + 1)
  have hlimit : referenceLimit + 1 = rest + 1 + count := by omega
  rw [object?_eq_follow, hlimit, hend, follow_absent hget]
  rfl

theorem Leads.object?_of_endless (hleads : document.Leads (referenceLimit + 1) id last) :
    document.object? id = none := by
  obtain ⟨end?, hend⟩ := hleads.follow none 0
  rw [Nat.zero_add] at hend
  rw [object?_eq_follow, hend]
  cases hget : document.objects.get? last with
  | none =>
    rw [follow_absent hget]
    rfl
  | some object =>
    rw [follow_endless hget]
    rfl

theorem streamsOf_succ (document : Document) (id : ObjectId) (limit : Nat) :
    document.streamsOf (.reference id) (limit + 1) =
      match document.objects.get? id with
      | none => [id]
      | some (.stream ..) => [id]
      | some next => document.streamsOf next limit :=
  rfl

theorem streamsOf_reference {target : ObjectId}
    (hget : document.objects.get? id = some (.reference target)) (limit : Nat) :
    document.streamsOf (.reference id) (limit + 1) =
      document.streamsOf (.reference target) limit := by
  rw [streamsOf_succ, hget]

theorem Leads.streamsOf (hleads : document.Leads count id last) (limit : Nat) :
    document.streamsOf (.reference id) (limit + count) =
      document.streamsOf (.reference last) limit := by
  induction hleads with
  | here id => rfl
  | @next count id target last hget hrest ih =>
    show document.streamsOf (.reference id) (limit + count + 1) = _
    rw [streamsOf_reference hget, ih]

theorem Leads.streamsOf_eq_nil (hleads : document.Leads count id last) {limit : Nat}
    (hlimit : limit ≤ count) : document.streamsOf (.reference id) limit = [] := by
  induction hleads generalizing limit with
  | here id =>
    cases Nat.le_zero.1 hlimit
    rfl
  | @next count id target last hget hrest ih =>
    cases limit with
    | zero => rfl
    | succ limit => rw [streamsOf_reference hget, ih (Nat.le_of_succ_le_succ hlimit)]

theorem ends_or_refers (document : Document) (id : ObjectId) :
    (∀ object ∈ document.objects.get? id, object.toReference? = none) ∨
      ∃ target, document.objects.get? id = some (.reference target) := by
  cases hget : document.objects.get? id with
  | none => exact .inl fun object hobject => by cases hobject
  | some object =>
    cases object with
    | reference target => exact .inr ⟨target, rfl⟩
    | _ =>
      refine .inl fun object hobject => ?_
      cases hobject
      rfl

theorem exists_leads (document : Document) (id : ObjectId) (limit : Nat) :
    (∃ count last, count ≤ limit ∧ document.Leads count id last ∧
      ∀ object ∈ document.objects.get? last, object.toReference? = none) ∨
    ∃ last, document.Leads (limit + 1) id last := by
  induction limit generalizing id with
  | zero =>
    rcases ends_or_refers document id with hend | ⟨target, hget⟩
    · exact .inl ⟨0, id, Nat.le_refl 0, .here id, hend⟩
    · exact .inr ⟨target, .next hget (.here target)⟩
  | succ limit ih =>
    rcases ends_or_refers document id with hend | ⟨target, hget⟩
    · exact .inl ⟨0, id, Nat.zero_le _, .here id, hend⟩
    · rcases ih target with ⟨count, last, hcount, hleads, hlast⟩ | ⟨last, hleads⟩
      · exact .inl ⟨count + 1, last, Nat.succ_le_succ hcount, .next hget hleads, hlast⟩
      · exact .inr ⟨last, .next hget hleads⟩

theorem streamData_of_object? {entries : Dictionary} {data : List UInt8}
    (hobject : document.object? id = some (.stream entries data)) :
    document.streamData id = plainData entries data := by
  rw [streamData, hobject]

theorem streamData_of_get? {entries : Dictionary} {data : List UInt8}
    (hget : document.objects.get? id = some (.stream entries data)) :
    document.streamData id = plainData entries data :=
  streamData_of_object? ((Leads.here id).object?_eq_some (Nat.zero_le _) hget rfl)

theorem streamData_eq_nil
    (hobject : ∀ entries data, document.object? id ≠ some (.stream entries data)) :
    document.streamData id = [] := by
  rw [streamData]
  split
  next entries data hstream => exact (hobject entries data hstream).elim
  next => rfl

end Chains

section Reading

variable {document : Document} {page : ObjectId}

/-- What the streams show that a reference names. -/
def shown (document : Document) (id : ObjectId) : List UInt8 :=
  (document.streamsOf (.reference id) referenceLimit).flatMap document.streamData

section Ends

variable {id last : ObjectId} {count : Nat} (hleads : document.Leads count id last)

include hleads

theorem shown_eq (hcount : count ≤ referenceLimit) : document.shown id =
    (document.streamsOf (.reference last) (referenceLimit - count)).flatMap
      document.streamData := by
  have hlimit : referenceLimit = referenceLimit - count + count := by omega
  rw [shown, hlimit, hleads.streamsOf, Nat.add_sub_cancel]

theorem shown_of_stream {entries : Dictionary} {data : List UInt8}
    (hget : document.objects.get? last = some (.stream entries data))
    (hcount : count < referenceLimit) : document.shown id = document.streamData id := by
  have hobject := hleads.object?_eq_some (Nat.le_of_lt hcount) hget rfl
  obtain ⟨rest, hrest⟩ : ∃ rest, referenceLimit - count = rest + 1 :=
    ⟨referenceLimit - count - 1, by omega⟩
  rw [shown_eq hleads (Nat.le_of_lt hcount), hrest, streamsOf_succ, hget,
    streamData_of_object? hobject]
  simp [streamData_of_get? hget]

theorem shown_of_array {items : List Object}
    (hget : document.objects.get? last = some (.array items))
    (hcount : count + 1 < referenceLimit) :
    document.shown id = (items.filterMap Object.toReference?).flatMap document.streamData := by
  obtain ⟨rest, hrest⟩ : ∃ rest, referenceLimit - count = rest + 2 :=
    ⟨referenceLimit - count - 2, by omega⟩
  rw [shown_eq hleads (by omega), hrest, streamsOf_succ, hget]
  rfl

/-- Anything else at the end shows nothing, nor does a number without an object. -/
theorem shown_eq_nil (hcount : count ≤ referenceLimit)
    (hreference : ∀ object ∈ document.objects.get? last, object.toReference? = none)
    (hstream : ∀ entries data, document.objects.get? last ≠ some (.stream entries data))
    (harray : ∀ items, document.objects.get? last ≠ some (.array items)) :
    document.shown id = [] := by
  rw [shown_eq hleads hcount]
  cases referenceLimit - count with
  | zero => rfl
  | succ rest =>
    rw [streamsOf_succ]
    cases hget : document.objects.get? last with
    | none =>
      have hnone := (Leads.here last).object?_of_absent (Nat.zero_le _) hget
      simp [streamData_eq_nil, hnone]
    | some object =>
      have hobject := hreference object hget
      cases object with
      | stream entries data => exact (hstream entries data hget).elim
      | array items => exact (harray items hget).elim
      | reference target => cases hobject
      | _ => cases rest <;> rfl

end Ends

theorem listedContent_of_reference {id : ObjectId}
    (hcontents : (document.dictionary? page).bind (Dictionary.get? "Contents") =
      some (.reference id)) (hobject : ∀ items, document.object? id ≠ some (.array items)) :
    document.listedContent page = document.streamData id := by
  rw [listedContent, contentEntries, hcontents]
  dsimp only
  split
  next items harray => exact (hobject items harray).elim
  next => simp [Object.toReference?]

theorem listedContent_of_array {id : ObjectId} {items : List Object}
    (hcontents : (document.dictionary? page).bind (Dictionary.get? "Contents") =
      some (.reference id)) (hobject : document.object? id = some (.array items)) :
    document.listedContent page =
      (items.filterMap Object.toReference?).flatMap document.streamData := by
  rw [listedContent, contentEntries, hcontents]
  dsimp only
  rw [hobject]

/-- The streams of a reference that is not out of reach show what the entries show that it stands
for. -/
theorem shown_of_reach {id : ObjectId}
    (hcontents : (document.dictionary? page).bind (Dictionary.get? "Contents") =
      some (.reference id)) (hreach : ¬ document.OutOfReach page) :
    document.shown id = document.listedContent page := by
  rcases exists_leads document id referenceLimit with
    ⟨count, last, hcount, hleads, hlast⟩ | ⟨last, hleads⟩
  · by_cases hstream : ∃ entries data, document.objects.get? last = some (.stream entries data)
    · have hne : count ≠ referenceLimit := fun heq =>
        hreach ⟨id, count, last, hcontents, hleads, .inl ⟨hstream, heq⟩⟩
      obtain ⟨entries, data, hget⟩ := hstream
      have hobject := hleads.object?_eq_some hcount hget rfl
      rw [listedContent_of_reference hcontents (by simp [hobject]),
        shown_of_stream hleads hget (Nat.lt_of_le_of_ne hcount hne)]
    · by_cases harray : ∃ items, document.objects.get? last = some (.array items)
      · have hne : ¬ (count + 1 = referenceLimit ∨ count = referenceLimit) := fun hcases =>
          hreach ⟨id, count, last, hcontents, hleads, .inr ⟨harray, hcases⟩⟩
        obtain ⟨items, hget⟩ := harray
        have hobject := hleads.object?_eq_some hcount hget rfl
        rw [listedContent_of_array hcontents hobject, shown_of_array hleads hget (by omega)]
      · simp only [not_exists] at hstream harray
        have hnothing := shown_eq_nil hleads hcount hlast hstream harray
        cases hget : document.objects.get? last with
        | none =>
          have hobject := hleads.object?_of_absent hcount hget
          rw [hnothing, listedContent_of_reference hcontents (by simp [hobject]),
            streamData_eq_nil (by simp [hobject])]
        | some object =>
          have hobject := hleads.object?_eq_some hcount hget (hlast object hget)
          rw [hget] at hstream harray
          rw [← hobject] at hstream harray
          rw [hnothing, listedContent_of_reference hcontents harray, streamData_eq_nil hstream]
  · have hobject := hleads.object?_of_endless
    rw [listedContent_of_reference hcontents (by simp [hobject]),
      streamData_eq_nil (by simp [hobject]), shown, hleads.streamsOf_eq_nil (Nat.le_succ _)]
    rfl

theorem content_congr {other : ObjectId} (hsame : document.dictionary? page = document.dictionary? other) :
    document.pageContent page = document.pageContent other ∧
      document.contentEntries page = document.contentEntries other ∧
      (document.OutOfReach page ↔ document.OutOfReach other) := by
  simp only [pageContent, contentEntries, OutOfReach, hsame, and_self]

/-- Both ways to read the content of a page agree, unless it is out of reach. -/
theorem listedContent_eq (hreach : ¬ document.OutOfReach page) :
    document.listedContent page = document.pageContent page := by
  cases hcontents : (document.dictionary? page).bind (Dictionary.get? "Contents") with
  | none =>
    rw [listedContent, contentEntries, pageContent, hcontents]
    rfl
  | some entry =>
    have hpage : document.pageContent page =
        (document.streamsOf entry referenceLimit).flatMap document.streamData := by
      rw [pageContent, hcontents]
    rw [hpage]
    cases entry with
    | reference id => exact (shown_of_reach hcontents hreach).symm
    | _ =>
      rw [listedContent, contentEntries, hcontents]
      rfl

theorem pageContent_of_outOfReach (hreach : document.OutOfReach page) :
    document.pageContent page = [] := by
  obtain ⟨id, count, last, hcontents, hleads, hcases⟩ := hreach
  have hpage : document.pageContent page =
      (document.streamsOf (.reference id) referenceLimit).flatMap document.streamData := by
    rw [pageContent, hcontents]
  rw [hpage]
  rcases hcases with ⟨-, hcount⟩ | ⟨⟨items, hget⟩, hcount | hcount⟩
  · rw [hleads.streamsOf_eq_nil (Nat.le_of_eq hcount.symm)]
    rfl
  · rw [← hcount, Nat.add_comm, hleads.streamsOf]
    simp [streamsOf, hget]
  · rw [hleads.streamsOf_eq_nil (Nat.le_of_eq hcount.symm)]
    rfl

end Reading

end Document

end Overprint.Pdf
