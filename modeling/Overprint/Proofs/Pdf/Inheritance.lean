import Mathlib.Data.Nat.Find
import Overprint.Proofs.Pdf.Content

/-!
# Inherited entries

What a page says at a key is said by the first dictionary that has the key, among the page and the
dictionaries above it, as far up as is looked. Every search ends after so many steps, whatever the
document is like, and the numbers that it looks at are all that it depends on: those on the way to
the dictionaries up to that first one, and those on the way from the value found there.
-/

namespace Overprint.Pdf.Document

variable {document other : Document} {page id probe : ObjectId} {key : String}

section Chain

/-- The number by which a dictionary refers to the one above it. -/
def parent? (node : Dictionary) : Option ObjectId :=
  (Dictionary.get? "Parent" node).bind Object.toReference?

/-- The number of the dictionary so many steps above a page. -/
def ancestor? (document : Document) : ObjectId → (depth : Nat) → Option ObjectId
  | page, 0 => some page
  | page, depth + 1 =>
    ((document.dictionary? page).bind parent?).bind fun parent => document.ancestor? parent depth

/-- What the dictionary so many steps above a page has at a key. -/
def entryAt? (document : Document) (page : ObjectId) (key : String) (depth : Nat) : Option Object :=
  ((document.ancestor? page depth).bind document.dictionary?).bind (Dictionary.get? key)

/-- The first dictionary with the key, from a page upward, is so many steps above it. -/
structure Nearest (document : Document) (page : ObjectId) (key : String) (depth : Nat)
    (entry : Object) : Prop where
  entry_eq : document.entryAt? page key depth = some entry
  below : ∀ lower < depth, document.entryAt? page key lower = none

theorem entryAt?_succ (document : Document) (page : ObjectId) (key : String) (depth : Nat) :
    document.entryAt? page key (depth + 1) = ((document.dictionary? page).bind parent?).bind
      fun parent => document.entryAt? parent key depth := by
  rw [entryAt?, ancestor?]
  cases (document.dictionary? page).bind parent? <;> rfl

theorem nearest_zero {entry : Object} :
    document.Nearest page key 0 entry ↔ document.entryAt? page key 0 = some entry :=
  ⟨Nearest.entry_eq, fun hentry => ⟨hentry, fun _ hlower => absurd hlower (Nat.not_lt_zero _)⟩⟩

theorem nearest_succ {depth : Nat} {entry : Object} :
    document.Nearest page key (depth + 1) entry ↔ document.entryAt? page key 0 = none ∧
      ∃ parent, (document.dictionary? page).bind parent? = some parent ∧
        document.Nearest parent key depth entry := by
  constructor
  · rintro ⟨hentry, hbelow⟩
    rw [entryAt?_succ] at hentry
    obtain ⟨parent, hparent, hentry⟩ := Option.bind_eq_some_iff.1 hentry
    refine ⟨hbelow 0 (Nat.succ_pos depth), parent, hparent, hentry, fun lower hlower => ?_⟩
    have hnone := hbelow (lower + 1) (Nat.succ_lt_succ hlower)
    rwa [entryAt?_succ, hparent] at hnone
  · rintro ⟨hzero, parent, hparent, hentry, hbelow⟩
    refine ⟨?_, fun lower hlower => ?_⟩
    · rw [entryAt?_succ, hparent]
      exact hentry
    · cases lower with
      | zero => exact hzero
      | succ lower =>
        rw [entryAt?_succ, hparent]
        exact hbelow lower (Nat.lt_of_succ_lt_succ hlower)

/-- The value at a key that is found from a page upward, in so many dictionaries. -/
def climb? (document : Document) (key : String) (page : ObjectId) (limit : Nat) : Option Object :=
  (document.dictionary? page).bind fun node => document.inheritedFrom? key node limit

theorem climb?_succ (document : Document) (key : String) (page : ObjectId) (limit : Nat) :
    document.climb? key page (limit + 1) =
      ((document.entryAt? page key 0).map document.resolve).or
        (((document.dictionary? page).bind parent?).bind
          fun parent => document.climb? key parent limit) := by
  rw [climb?, entryAt?, ancestor?, Option.bind_some]
  cases document.dictionary? page with
  | none => rfl
  | some node =>
    simp only [Option.bind_some, inheritedFrom?, parent?]
    cases Dictionary.get? key node with
    | some value => rfl
    | none =>
      cases Dictionary.get? "Parent" node with
      | none => rfl
      | some parent => cases parent <;> rfl

theorem climb?_eq_some {limit : Nat} {value : Object} : document.climb? key page limit = some value ↔
    ∃ depth < limit, ∃ entry, document.Nearest page key depth entry ∧
      document.resolve entry = value := by
  induction limit generalizing page with
  | zero => cases hnode : document.dictionary? page <;> simp [climb?, inheritedFrom?, hnode]
  | succ limit ih =>
    rw [climb?_succ, Option.or_eq_some_iff, Nat.exists_lt_succ_left]
    simp only [Option.map_eq_some_iff, Option.map_eq_none_iff, Option.bind_eq_some_iff, ih,
      nearest_zero, nearest_succ]
    refine or_congr Iff.rfl ?_
    constructor
    · rintro ⟨hzero, parent, hparent, depth, hdepth, entry, hnearest, hvalue⟩
      exact ⟨depth, hdepth, entry, ⟨hzero, parent, hparent, hnearest⟩, hvalue⟩
    · rintro ⟨depth, hdepth, entry, ⟨hzero, parent, hparent, hnearest⟩, hvalue⟩
      exact ⟨hzero, parent, hparent, depth, hdepth, entry, hnearest, hvalue⟩

theorem inherited?_of_own {node : Dictionary} {entry : Object}
    (hnode : document.dictionary? page = some node) (hentry : Dictionary.get? key node = some entry) :
    document.inherited? page key = some (document.resolve entry) := by
  refine climb?_eq_some.2 ⟨0, by decide, entry, nearest_zero.2 ?_, rfl⟩
  rw [entryAt?, ancestor?, Option.bind_some, hnode]
  exact hentry

theorem exists_nearest {depth : Nat} {entry : Object}
    (hentry : document.entryAt? page key depth = some entry) :
    ∃ lower ≤ depth, ∃ found, document.Nearest page key lower found := by
  have hsome : ∃ depth, (document.entryAt? page key depth).isSome :=
    ⟨depth, Option.isSome_iff_exists.2 ⟨entry, hentry⟩⟩
  obtain ⟨found, hfound⟩ := Option.isSome_iff_exists.1 (Nat.find_spec hsome)
  refine ⟨Nat.find hsome, Nat.find_min' hsome ?_, found, hfound, fun lower hlower => ?_⟩
  · rw [hentry, Option.isSome_some]
  · exact Option.not_isSome_iff_eq_none.1 (Nat.find_min hsome hlower)

theorem inherited?_eq_none : document.inherited? page key = none ↔
    ∀ depth < inheritanceLimit, document.entryAt? page key depth = none := by
  constructor
  · intro hnone depth hdepth
    refine Option.eq_none_iff_forall_ne_some.2 fun entry hentry => ?_
    obtain ⟨lower, hlower, found, hnearest⟩ := exists_nearest hentry
    have hsome : document.inherited? page key = some (document.resolve found) :=
      climb?_eq_some.2 ⟨lower, Nat.lt_of_le_of_lt hlower hdepth, found, hnearest, rfl⟩
    rw [hnone] at hsome
    cases hsome
  · intro hnone
    refine Option.eq_none_iff_forall_ne_some.2 fun value hvalue => ?_
    obtain ⟨depth, hdepth, entry, hnearest, -⟩ := climb?_eq_some.1 hvalue
    have hentry := hnearest.entry_eq
    rw [hnone depth hdepth] at hentry
    cases hentry

end Chain

section Resolution

/-- What an object stands for: itself, unless it is a reference that leads to something else. One
that leads nowhere, or further than references are followed, stands for itself as well. -/
inductive StandsFor (document : Document) : Object → Object → Prop
  | plain {object : Object} (hobject : object.toReference? = none) :
      document.StandsFor object object
  | led {id last : ObjectId} {count : Nat} {object : Object} (hleads : document.Leads count id last)
      (hcount : count ≤ referenceLimit) (hget : document.objects.get? last = some object)
      (hobject : object.toReference? = none) : document.StandsFor (.reference id) object
  | lost {id : ObjectId}
      (hlost : ∀ count ≤ referenceLimit, ∀ last object, document.Leads count id last →
        document.objects.get? last = some object → object.toReference? ≠ none) :
      document.StandsFor (.reference id) (.reference id)

theorem resolve_of_not_reference {object : Object} (hobject : object.toReference? = none) :
    document.resolve object = object := by
  cases object with
  | reference id => cases hobject
  | _ => rfl

theorem Leads.resolve {last : ObjectId} {count : Nat} {object : Object}
    (hleads : document.Leads count id last) (hcount : count ≤ referenceLimit)
    (hget : document.objects.get? last = some object) (hobject : object.toReference? = none) :
    document.resolve (.reference id) = object := by
  show (document.object? id).getD _ = object
  rw [hleads.object?_eq_some hcount hget hobject]
  rfl

theorem resolve_of_lost
    (hlost : ∀ count ≤ referenceLimit, ∀ last object, document.Leads count id last →
      document.objects.get? last = some object → object.toReference? ≠ none) :
    document.resolve (.reference id) = .reference id := by
  show (document.object? id).getD _ = _
  have hnone : document.object? id = none := by
    rcases exists_leads document id referenceLimit with
      ⟨count, last, hcount, hleads, hlast⟩ | ⟨last, hleads⟩
    · cases hget : document.objects.get? last with
      | none => exact hleads.object?_of_absent hcount hget
      | some object => exact absurd (hlast object hget) (hlost count hcount last object hleads hget)
    · exact hleads.object?_of_endless
  rw [hnone]
  rfl

theorem resolve_eq_iff {object value : Object} :
    document.resolve object = value ↔ document.StandsFor object value := by
  constructor
  · rintro rfl
    cases object with
    | reference id =>
      by_cases hled : ∃ count ≤ referenceLimit, ∃ last object, document.Leads count id last ∧
          document.objects.get? last = some object ∧ object.toReference? = none
      · obtain ⟨count, hcount, last, found, hleads, hget, hfound⟩ := hled
        rw [hleads.resolve hcount hget hfound]
        exact .led hleads hcount hget hfound
      · have hlost : ∀ count ≤ referenceLimit, ∀ last object, document.Leads count id last →
            document.objects.get? last = some object → object.toReference? ≠ none :=
          fun count hcount last found hleads hget hfound =>
            hled ⟨count, hcount, last, found, hleads, hget, hfound⟩
        rw [resolve_of_lost hlost]
        exact .lost hlost
    | _ => exact .plain rfl
  · intro hstands
    cases hstands with
    | plain hobject => exact resolve_of_not_reference hobject
    | led hleads hcount hget hobject => exact hleads.resolve hcount hget hobject
    | lost hlost => exact resolve_of_lost hlost

end Resolution

section Reach

/-- The numbers that are looked at, at most so many, to find out where a number leads. -/
def trail (document : Document) : ObjectId → (limit : Nat) → List ObjectId
  | _, 0 => []
  | id, limit + 1 =>
    match document.objects.get? id with
    | some (.reference target) => id :: document.trail target limit
    | _ => [id]

/-- A number is looked at on the way to the object that another one leads to. -/
def Passes (document : Document) (id probe : ObjectId) : Prop :=
  ∃ count ≤ referenceLimit, document.Leads count id probe

theorem length_trail_le (document : Document) (id : ObjectId) (limit : Nat) :
    (document.trail id limit).length ≤ limit := by
  fun_induction trail document id limit with
  | case1 => exact Nat.le_refl 0
  | case2 id limit target hget ih => exact Nat.succ_le_succ ih
  | case3 id limit hget => exact Nat.succ_le_succ (Nat.zero_le limit)

theorem exists_leads_of_mem_trail {limit : Nat} (hmem : probe ∈ document.trail id limit) :
    ∃ count < limit, document.Leads count id probe := by
  fun_induction trail document id limit with
  | case1 => cases hmem
  | case2 id limit target hget ih =>
    rcases List.mem_cons.1 hmem with rfl | hmem
    · exact ⟨0, Nat.succ_pos limit, .here probe⟩
    · obtain ⟨count, hcount, hleads⟩ := ih hmem
      exact ⟨count + 1, Nat.succ_lt_succ hcount, .next hget hleads⟩
  | case3 id limit hget =>
    cases List.mem_singleton.1 hmem
    exact ⟨0, Nat.succ_pos limit, .here probe⟩

theorem passes_of_mem_trail (hmem : probe ∈ document.trail id (referenceLimit + 1)) :
    document.Passes id probe := by
  obtain ⟨count, hcount, hleads⟩ := exists_leads_of_mem_trail hmem
  exact ⟨count, Nat.le_of_lt_succ hcount, hleads⟩

/-- Where references lead depends on the numbers that are looked at. -/
theorem follow_congr {limit : Nat} {place? : Option ObjectId}
    (hsame : ∀ probe ∈ document.trail id limit,
      other.objects.get? probe = document.objects.get? probe) :
    (other.follow place? (.reference id) limit).toOption =
      (document.follow place? (.reference id) limit).toOption := by
  fun_induction trail document id limit generalizing place? with
  | case1 id =>
    rw [follow.eq_def, follow.eq_def]
    dsimp only
    cases document.objects.get? id <;> cases other.objects.get? id <;> rfl
  | case2 id limit target hget ih =>
    have hother : other.objects.get? id = some (.reference target) := by
      rw [hsame id List.mem_cons_self, hget]
    rw [follow_reference hget, follow_reference hother]
    exact ih fun probe hmem => hsame probe (List.mem_cons_of_mem id hmem)
  | case3 id limit hget =>
    have hother := hsame id List.mem_cons_self
    cases hnext : document.objects.get? id with
    | none =>
      rw [hnext] at hother
      rw [follow_absent hnext, follow_absent hother]
    | some next =>
      have hplain : next.toReference? = none :=
        toReference?_eq_none fun target heq => hget target (heq ▸ hnext)
      rw [hnext] at hother
      rw [follow_reference hnext, follow_reference hother, follow_of_not_reference _ _ hplain,
        follow_of_not_reference _ _ hplain]

/-- The numbers that are looked at to find the object that a number leads to. -/
def steps (document : Document) (id : ObjectId) : List ObjectId :=
  document.trail id (referenceLimit + 1)

theorem object?_congr (hsame : ∀ probe ∈ document.steps id,
    other.objects.get? probe = document.objects.get? probe) :
    other.object? id = document.object? id := by
  rw [object?_eq_follow, object?_eq_follow, follow_congr hsame]

theorem dictionary?_congr (hsame : ∀ probe ∈ document.steps id,
    other.objects.get? probe = document.objects.get? probe) :
    other.dictionary? id = document.dictionary? id := by
  rw [dictionary?, dictionary?, object?_congr hsame]

/-- The numbers that are looked at to find what an object stands for. -/
def stepsFrom (document : Document) (object : Object) : List ObjectId :=
  object.toReference?.elim [] document.steps

theorem resolve_congr {object : Object} (hsame : ∀ probe ∈ document.stepsFrom object,
    other.objects.get? probe = document.objects.get? probe) :
    other.resolve object = document.resolve object := by
  cases object with
  | reference id =>
    show (other.object? id).getD _ = (document.object? id).getD _
    rw [object?_congr hsame]
  | _ => rfl

end Reach

section Search

/-- The numbers that are looked at in the search for a key from a page upward, in so many
dictionaries. -/
def consulted (document : Document) (key : String) : ObjectId → (limit : Nat) → List ObjectId
  | _, 0 => []
  | page, limit + 1 =>
    match document.entryAt? page key 0, (document.dictionary? page).bind parent? with
    | some entry, _ => document.steps page ++ document.stepsFrom entry
    | none, some parent => document.steps page ++ document.consulted key parent limit
    | none, none => document.steps page

theorem length_steps_le (document : Document) (id : ObjectId) :
    (document.steps id).length ≤ referenceLimit + 1 :=
  document.length_trail_le id (referenceLimit + 1)

theorem length_stepsFrom_le (document : Document) (object : Object) :
    (document.stepsFrom object).length ≤ referenceLimit + 1 := by
  rw [stepsFrom]
  cases object.toReference? with
  | none => exact Nat.zero_le _
  | some id => exact document.length_steps_le id

/-- A search looks at no more numbers than those of so many dictionaries and a value. -/
theorem length_consulted_le (document : Document) (key : String) (page : ObjectId) (limit : Nat) :
    (document.consulted key page limit).length ≤ (limit + 1) * (referenceLimit + 1) := by
  fun_induction consulted document key page limit with
  | case1 => exact Nat.zero_le _
  | case2 page limit entry hentry =>
    rw [List.length_append, Nat.succ_mul, Nat.succ_mul, Nat.add_assoc]
    exact Nat.le_add_left_of_le
      (Nat.add_le_add (document.length_steps_le page) (document.length_stepsFrom_le entry))
  | case3 page limit parent hnone hparent ih =>
    rw [List.length_append, Nat.succ_mul, Nat.add_comm]
    exact Nat.add_le_add ih (document.length_steps_le page)
  | case4 page limit hnone hparent =>
    rw [Nat.succ_mul]
    exact Nat.le_add_left_of_le (document.length_steps_le page)

/-- What is found in a search depends on the numbers that are looked at. -/
theorem climb?_congr {limit : Nat} (hsame : ∀ probe ∈ document.consulted key page limit,
    other.objects.get? probe = document.objects.get? probe) :
    other.climb? key page limit = document.climb? key page limit := by
  have hfirst {page : ObjectId} (hsame : ∀ probe ∈ document.steps page,
      other.objects.get? probe = document.objects.get? probe) :
      other.entryAt? page key 0 = document.entryAt? page key 0 := by
    rw [entryAt?, entryAt?, ancestor?, ancestor?, Option.bind_some, Option.bind_some,
      dictionary?_congr hsame]
  fun_induction consulted document key page limit with
  | case1 page =>
    rw [climb?, climb?]
    cases other.dictionary? page <;> cases document.dictionary? page <;> rfl
  | case2 page limit entry hentry =>
    obtain ⟨hpage, hvalue⟩ := List.forall_mem_append.1 hsame
    rw [climb?_succ, climb?_succ, hfirst hpage, hentry, Option.map_some, Option.map_some,
      resolve_congr hvalue, Option.some_or, Option.some_or]
  | case3 page limit parent hparent hnone ih =>
    obtain ⟨hpage, habove⟩ := List.forall_mem_append.1 hsame
    rw [climb?_succ, climb?_succ, hfirst hpage, dictionary?_congr hpage, hnone, hparent,
      Option.bind_some, Option.bind_some, ih habove]
    rfl
  | case4 page limit hparent hnone =>
    rw [climb?_succ, climb?_succ, hfirst hsame, dictionary?_congr hsame, hnone, hparent]
    rfl

/-- A number that the search for a key from a page upward looks at: it is on the way to one of the
dictionaries up to the first that has the key, or on the way from the value there. -/
inductive Consults (document : Document) (limit : Nat) (page : ObjectId) (key : String) :
    ObjectId → Prop
  | node {depth : Nat} {start probe : ObjectId} (hdepth : depth < limit)
      (hbelow : ∀ lower < depth, document.entryAt? page key lower = none)
      (hstart : document.ancestor? page depth = some start)
      (hpasses : document.Passes start probe) : document.Consults limit page key probe
  | value {depth : Nat} {start probe : ObjectId} (hdepth : depth < limit)
      (hnearest : document.Nearest page key depth (.reference start))
      (hpasses : document.Passes start probe) : document.Consults limit page key probe

theorem consults_of_mem {limit : Nat} (hmem : probe ∈ document.consulted key page limit) :
    document.Consults limit page key probe := by
  have hnode {page : ObjectId} {limit : Nat} (hmem : probe ∈ document.steps page) :
      document.Consults (limit + 1) page key probe :=
    .node (Nat.succ_pos limit) (fun _ hlower => absurd hlower (Nat.not_lt_zero _)) rfl
      (passes_of_mem_trail hmem)
  fun_induction consulted document key page limit with
  | case1 => cases hmem
  | case2 page limit entry hentry =>
    rcases List.mem_append.1 hmem with hmem | hmem
    · exact hnode hmem
    · cases entry with
      | reference start =>
        exact .value (Nat.succ_pos limit) (nearest_zero.2 hentry) (passes_of_mem_trail hmem)
      | _ => cases hmem
  | case3 page limit parent hparent hnone ih =>
    rcases List.mem_append.1 hmem with hmem | hmem
    · exact hnode hmem
    · cases ih hmem with
      | @node depth start _ hdepth hbelow hstart hpasses =>
        refine .node (Nat.succ_lt_succ hdepth) (fun lower hlower => ?_) ?_ hpasses
        · cases lower with
          | zero => exact hnone
          | succ lower =>
            rw [entryAt?_succ, hparent]
            exact hbelow lower (Nat.lt_of_succ_lt_succ hlower)
        · rw [ancestor?, hparent]
          exact hstart
      | value hdepth hnearest hpasses =>
        exact .value (Nat.succ_lt_succ hdepth)
          (nearest_succ.2 ⟨hnone, parent, hparent, hnearest⟩) hpasses
  | case4 page limit hparent hnone => exact hnode hmem

theorem inherited?_congr
    (hsame : ∀ probe, document.Consults inheritanceLimit page key probe →
      other.objects.get? probe = document.objects.get? probe) :
    other.inherited? page key = document.inherited? page key :=
  climb?_congr fun probe hmem => hsame probe (consults_of_mem hmem)

end Search

section Page

/-- A number that the size of a page depends on: the search for its box looks at it, or it is on the
way from an item of the box. -/
def SizeConsults (document : Document) (page probe : ObjectId) : Prop :=
  document.Consults inheritanceLimit page "MediaBox" probe ∨
    ∃ items start, document.inherited? page "MediaBox" = some (.array items) ∧
      .reference start ∈ items ∧ document.Passes start probe

theorem resources_congr
    (hsame : ∀ probe, document.Consults inheritanceLimit page "Resources" probe →
      other.objects.get? probe = document.objects.get? probe) :
    other.resources page = document.resources page := by
  rw [resources, resources, inherited?_congr hsame]

theorem passes_of_mem_stepsFrom {object : Object} (hmem : probe ∈ document.stepsFrom object) :
    ∃ start, object = .reference start ∧ document.Passes start probe := by
  cases object with
  | reference start => exact ⟨start, rfl, passes_of_mem_trail hmem⟩
  | _ => cases hmem

private theorem mapM_option_congr {α β : Type} {items : List α} {first second : α → Option β}
    (hsame : ∀ item ∈ items, first item = second item) : items.mapM first = items.mapM second := by
  induction items with
  | nil => rfl
  | cons item rest ih =>
    obtain ⟨hitem, hrest⟩ := List.forall_mem_cons.1 hsame
    rw [List.mapM_cons, List.mapM_cons, hitem, ih hrest]

theorem pageSize_congr (hsame : ∀ probe, document.SizeConsults page probe →
    other.objects.get? probe = document.objects.get? probe) :
    other.pageSize page = document.pageSize page := by
  have hinherited : other.inherited? page "MediaBox" = document.inherited? page "MediaBox" :=
    inherited?_congr fun probe hconsults => hsame probe (.inl hconsults)
  suffices other.mediaBox? page = document.mediaBox? page by rw [pageSize, pageSize, this]
  rw [mediaBox?, mediaBox?, hinherited]
  cases hvalue : document.inherited? page "MediaBox" with
  | none => rfl
  | some value =>
    cases value with
    | array items =>
      have hitems : items.mapM (fun item => (other.resolve item).toNumber?) =
          items.mapM fun item => (document.resolve item).toNumber? := by
        refine mapM_option_congr fun item hitem => ?_
        rw [resolve_congr fun probe hmem => ?_]
        obtain ⟨start, rfl, hpasses⟩ := passes_of_mem_stepsFrom hmem
        exact hsame probe (.inr ⟨items, start, hvalue, hitem, hpasses⟩)
      simp only [Option.bind_eq_bind, Option.bind_some, Object.toArray?, hitems]
    | _ => rfl

end Page

/-- Of every document and page: the value at a key is what stands for the entry of the first
dictionary that has the key, among the page and those above it as far as the limit, and there is none
if none of these has the key; a page with an entry of its own says that. The search looks at so many
numbers at most, each of them on the way to one of those dictionaries or on the way from the value,
and on what else is in the document nothing depends: neither the value, nor the resources of the page,
nor its size. -/
theorem inherited_nearest (document : Document) (page : ObjectId) :
    (∀ key value, document.inherited? page key = some value ↔ ∃ depth < inheritanceLimit, ∃ entry,
      document.Nearest page key depth entry ∧ document.StandsFor entry value) ∧
    (∀ key, document.inherited? page key = none ↔
      ∀ depth < inheritanceLimit, document.entryAt? page key depth = none) ∧
    (∀ key node entry value, document.dictionary? page = some node →
      Dictionary.get? key node = some entry → document.StandsFor entry value →
      document.inherited? page key = some value) ∧
    (∀ key, ∃ looked : List ObjectId,
      looked.length ≤ (inheritanceLimit + 1) * (referenceLimit + 1) ∧
      (∀ id ∈ looked, document.Consults inheritanceLimit page key id) ∧
      ∀ other : Document, (∀ id ∈ looked, other.objects.get? id = document.objects.get? id) →
        other.inherited? page key = document.inherited? page key) ∧
    (∀ key id object, ¬ document.Consults inheritanceLimit page key id →
      (document.put id object).inherited? page key = document.inherited? page key) ∧
    (∀ other : Document, (∀ id, document.Consults inheritanceLimit page "Resources" id →
        other.objects.get? id = document.objects.get? id) →
      other.resources page = document.resources page) ∧
    ∀ other : Document, (∀ id, document.SizeConsults page id →
        other.objects.get? id = document.objects.get? id) →
      other.pageSize page = document.pageSize page := by
  refine ⟨fun key value => ?_, fun key => inherited?_eq_none, ?_, fun key => ?_, ?_, ?_, ?_⟩
  · simp only [← resolve_eq_iff]
    exact climb?_eq_some
  · intro key node entry value hnode hentry hstands
    rw [inherited?_of_own hnode hentry, resolve_eq_iff.2 hstands]
  · exact ⟨document.consulted key page inheritanceLimit, document.length_consulted_le key page _,
      fun id => consults_of_mem, fun other => climb?_congr⟩
  · intro key id object hother
    refine inherited?_congr fun probe hconsults => SortedMap.get?_insert_of_ne ?_
    rintro rfl
    exact hother hconsults
  · exact fun other => resources_congr
  · exact fun other => pageSize_congr

/-- A page and a node above each other: what neither has is not found, though the search goes round
in a circle, and what the node has through a reference is found. -/
theorem inherited_nearest_of_circle :
    let box : Object := .array [.integer 0, .integer 0, .integer 300, .integer 400]
    let document := Document.ofObjects
      [(⟨1, 0⟩, .dictionary [("Parent", .reference ⟨2, 0⟩), ("Rotate", .integer 90)]),
        (⟨2, 0⟩, .dictionary [("Parent", .reference ⟨1, 0⟩), ("Rotate", .integer 0),
          ("MediaBox", .reference ⟨3, 0⟩)]),
        (⟨3, 0⟩, .reference ⟨4, 0⟩), (⟨4, 0⟩, box)] []
    document.inherited? ⟨1, 0⟩ "MediaBox" = some box ∧
      document.inherited? ⟨1, 0⟩ "Rotate" = some (.integer 90) ∧
      document.inherited? ⟨1, 0⟩ "Resources" = none := by
  intro box document
  obtain ⟨hvalue, hnone, hown, -⟩ := inherited_nearest document ⟨1, 0⟩
  refine ⟨(hvalue _ _).2 ⟨1, by decide, .reference ⟨3, 0⟩, ⟨rfl, by decide⟩, ?_⟩, ?_, ?_⟩
  · have hleads : document.Leads 1 ⟨3, 0⟩ ⟨4, 0⟩ := .next rfl (.here _)
    exact .led hleads (by decide) rfl rfl
  · exact hown _ _ _ _ rfl rfl (.plain rfl)
  · exact (hnone _).2 (by decide)

end Overprint.Pdf.Document
