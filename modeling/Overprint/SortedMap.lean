/-!
# Maps sorted by their keys

A map is the list of its entries in ascending order of the keys, each key once. The order is part of
the type, so two maps with the same value at every key are equal (`ext_get?`), and walking over a map
meets the keys in an order that does not depend on how the map was built.
-/

namespace Overprint

/-- The entries of a map, in ascending order of their keys. -/
structure SortedMap (κ : Type) [Ord κ] (υ : Type) where
  entries : List (κ × υ)
  sorted : entries.Pairwise fun left right => compare left.1 right.1 = .lt

namespace SortedMap

variable {κ υ : Type} [Ord κ]

/-- The value beside the first key that compares equal. -/
def find? (key : κ) : List (κ × υ) → Option υ
  | [] => none
  | (other, value) :: rest => if compare key other = .eq then some value else find? key rest

/-- The entries with one more in its place, instead of the one with an equal key. -/
def place (key : κ) (value : υ) : List (κ × υ) → List (κ × υ)
  | [] => [(key, value)]
  | (other, old) :: rest =>
    match compare key other with
    | .lt => (key, value) :: (other, old) :: rest
    | .eq => (key, value) :: rest
    | .gt => (other, old) :: place key value rest

theorem mem_place {key : κ} {value : υ} {entries : List (κ × υ)} {entry : κ × υ}
    (hmem : entry ∈ place key value entries) : entry = (key, value) ∨ entry ∈ entries := by
  induction entries with
  | nil => simpa [place] using hmem
  | cons head rest ih =>
    simp only [place] at hmem
    split at hmem
    · simpa using hmem
    · rcases List.mem_cons.1 hmem with h | h
      · exact .inl h
      · exact .inr (List.mem_cons_of_mem _ h)
    · rcases List.mem_cons.1 hmem with h | h
      · exact .inr (h ▸ List.mem_cons_self)
      · exact (ih h).imp_right (List.mem_cons_of_mem _)

def empty : SortedMap κ υ :=
  ⟨[], List.Pairwise.nil⟩

instance : EmptyCollection (SortedMap κ υ) := ⟨empty⟩

instance : Inhabited (SortedMap κ υ) := ⟨empty⟩

def get? (map : SortedMap κ υ) (key : κ) : Option υ :=
  find? key map.entries

def contains (map : SortedMap κ υ) (key : κ) : Bool :=
  (map.get? key).isSome

def erase (map : SortedMap κ υ) (key : κ) : SortedMap κ υ :=
  ⟨map.entries.filter fun entry => compare key entry.1 ≠ .eq, map.sorted.filter _⟩

def size (map : SortedMap κ υ) : Nat :=
  map.entries.length

def keys (map : SortedMap κ υ) : List κ :=
  map.entries.map (·.1)

def values (map : SortedMap κ υ) : List υ :=
  map.entries.map (·.2)

@[simp]
theorem get?_empty (key : κ) : (empty : SortedMap κ υ).get? key = none := rfl

theorem find?_eq_none_of_forall {key : κ} {entries : List (κ × υ)}
    (hlt : ∀ entry ∈ entries, compare key entry.1 = .lt) : find? key entries = none := by
  induction entries with
  | nil => rfl
  | cons head rest ih =>
    have hhead := hlt head List.mem_cons_self
    simp only [find?, hhead]
    exact ih fun entry hmem => hlt entry (List.mem_cons_of_mem _ hmem)

private theorem find?_place [Std.LawfulEqOrd κ] (key probe : κ) (value : υ) (entries : List (κ × υ)) :
    find? probe (place key value entries) =
      if compare probe key = .eq then some value else find? probe entries := by
  induction entries with
  | nil => rfl
  | cons head rest ih =>
    simp only [place]
    split
    next => simp only [find?]
    next heq =>
      have hkey : key = head.1 := Std.LawfulEqCmp.eq_of_compare heq
      subst hkey
      simp only [find?]
      split <;> rfl
    next hgt =>
      simp only [find?, ih]
      split
      next hprobe =>
        have hhead : probe = head.1 := Std.LawfulEqCmp.eq_of_compare hprobe
        have hne : compare probe key ≠ .eq := by
          intro heq
          cases Std.LawfulEqCmp.eq_of_compare heq
          rw [hprobe] at hgt
          cases hgt
        rw [if_neg hne]
      next => rfl

theorem mem_of_get? [Std.LawfulEqOrd κ] {map : SortedMap κ υ} {key : κ} {value : υ}
    (hget : map.get? key = some value) : (key, value) ∈ map.entries := by
  have hfind (entries : List (κ × υ)) (hfind : find? key entries = some value) :
      (key, value) ∈ entries := by
    induction entries with
    | nil => cases hfind
    | cons head rest ih =>
      rw [find?] at hfind
      split at hfind
      next heq =>
        cases hfind
        rw [Std.LawfulEqCmp.eq_of_compare heq]
        exact List.mem_cons_self
      next => exact List.mem_cons_of_mem head (ih hfind)
  exact hfind map.entries hget

theorem mem_values_of_get? [Std.LawfulEqOrd κ] {map : SortedMap κ υ} {key : κ} {value : υ}
    (hget : map.get? key = some value) : value ∈ map.values :=
  List.mem_map.2 ⟨_, mem_of_get? hget, rfl⟩

/-- An entry of a map is what the map holds at its key. -/
theorem get?_of_mem [Std.LawfulEqOrd κ] {map : SortedMap κ υ} {key : κ} {value : υ}
    (hmem : (key, value) ∈ map.entries) : map.get? key = some value := by
  have hfind (entries : List (κ × υ))
      (hsorted : entries.Pairwise fun left right => compare left.1 right.1 = .lt)
      (hmem : (key, value) ∈ entries) : find? key entries = some value := by
    induction entries with
    | nil => cases hmem
    | cons head rest ih =>
      obtain ⟨hhead, hrest⟩ := List.pairwise_cons.1 hsorted
      rw [find?]
      rcases List.mem_cons.1 hmem with rfl | hmem
      · rw [if_pos (by simp)]
      · have hne : compare key head.1 ≠ .eq := by
          intro heq
          have hlt : compare head.1 key = .lt := hhead (key, value) hmem
          rw [Std.LawfulEqCmp.eq_of_compare heq] at hlt
          simp at hlt
        rw [if_neg hne]
        exact ih hrest hmem
  exact hfind map.entries map.sorted hmem

theorem mem_keys_iff [Std.LawfulEqOrd κ] {map : SortedMap κ υ} {key : κ} :
    key ∈ map.keys ↔ (map.get? key).isSome := by
  constructor
  · intro hmem
    obtain ⟨entry, hentry, rfl⟩ := List.mem_map.1 hmem
    rw [get?_of_mem hentry]
    rfl
  · intro hsome
    obtain ⟨value, hget⟩ := Option.isSome_iff_exists.1 hsome
    exact List.mem_map.2 ⟨(key, value), mem_of_get? hget, rfl⟩

theorem get?_erase_eq_some [Std.LawfulEqOrd κ] {map : SortedMap κ υ} {key probe : κ} {value : υ} :
    (map.erase key).get? probe = some value ↔ probe ≠ key ∧ map.get? probe = some value := by
  constructor
  · intro hget
    obtain ⟨hmem, hne⟩ := List.mem_filter.1 (mem_of_get? hget)
    refine ⟨?_, get?_of_mem hmem⟩
    rintro rfl
    simp at hne
  · rintro ⟨hne, hget⟩
    refine get?_of_mem (List.mem_filter.2 ⟨mem_of_get? hget, ?_⟩)
    exact decide_eq_true fun heq => hne (Std.LawfulEqCmp.eq_of_compare heq).symm

@[simp]
theorem get?_erase_self [Std.LawfulEqOrd κ] (map : SortedMap κ υ) (key : κ) :
    (map.erase key).get? key = none :=
  Option.eq_none_iff_forall_ne_some.2 fun _ hget => (get?_erase_eq_some.1 hget).1 rfl

theorem get?_erase_of_ne [Std.LawfulEqOrd κ] {map : SortedMap κ υ} {key probe : κ}
    (hne : probe ≠ key) : (map.erase key).get? probe = map.get? probe :=
  Option.ext fun _ => get?_erase_eq_some.trans (and_iff_right hne)

theorem nodup_keys [Std.LawfulEqOrd κ] (map : SortedMap κ υ) : (map.entries.map (·.1)).Nodup := by
  refine List.pairwise_map.2 (map.sorted.imp fun {left right} hlt => ?_)
  intro heq
  rw [heq] at hlt
  simp at hlt

variable [Std.TransOrd κ] [Std.LawfulEqOrd κ]

theorem sorted_place {key : κ} {value : υ} {entries : List (κ × υ)}
    (hsorted : entries.Pairwise fun left right => compare left.1 right.1 = .lt) :
    (place key value entries).Pairwise fun left right => compare left.1 right.1 = .lt := by
  induction entries with
  | nil => simp [place]
  | cons head rest ih =>
    obtain ⟨hhead, hrest⟩ := List.pairwise_cons.1 hsorted
    simp only [place]
    split
    next hlt =>
      refine List.pairwise_cons.2 ⟨fun entry hmem => ?_, hsorted⟩
      rcases List.mem_cons.1 hmem with h | h
      · exact h ▸ hlt
      · exact Std.TransCmp.lt_trans hlt (hhead entry h)
    next heq =>
      have hkey : key = head.1 := Std.LawfulEqCmp.eq_of_compare heq
      exact List.pairwise_cons.2 ⟨fun entry hmem => hkey ▸ hhead entry hmem, hrest⟩
    next hgt =>
      refine List.pairwise_cons.2 ⟨fun entry hmem => ?_, ih hrest⟩
      rcases mem_place hmem with h | h
      · exact h ▸ Std.OrientedCmp.lt_of_gt hgt
      · exact hhead entry h

/-- The map with a value at a key, whatever was there before. -/
def insert (map : SortedMap κ υ) (key : κ) (value : υ) : SortedMap κ υ :=
  ⟨place key value map.entries, sorted_place map.sorted⟩

/-- The map of a list of entries; of equal keys the last one counts. -/
def ofList (entries : List (κ × υ)) : SortedMap κ υ :=
  entries.foldl (fun map (key, value) => map.insert key value) empty

instance [DecidableEq κ] [DecidableEq υ] : DecidableEq (SortedMap κ υ) := fun left right =>
  decidable_of_iff (left.entries = right.entries)
    ⟨fun h => by cases left; cases right; cases h; rfl, fun h => by rw [h]⟩

theorem get?_insert (map : SortedMap κ υ) (key probe : κ) (value : υ) :
    (map.insert key value).get? probe =
      if compare probe key = .eq then some value else map.get? probe :=
  find?_place key probe value map.entries

@[simp]
theorem get?_insert_self (map : SortedMap κ υ) (key : κ) (value : υ) :
    (map.insert key value).get? key = some value := by
  rw [get?_insert, if_pos (by simp)]

theorem get?_insert_of_ne {map : SortedMap κ υ} {key probe : κ} {value : υ} (hne : probe ≠ key) :
    (map.insert key value).get? probe = map.get? probe := by
  rw [get?_insert, if_neg fun h => hne (Std.LawfulEqCmp.eq_of_compare h)]

/-- What a map with a new entry holds at a key is the new value, or what it held at another key. -/
theorem get?_insert_eq_some {map : SortedMap κ υ} {key probe : κ} {value found : υ}
    (hget : (map.insert key value).get? probe = some found) :
    probe = key ∧ found = value ∨ probe ≠ key ∧ map.get? probe = some found := by
  by_cases hprobe : probe = key
  · rw [hprobe, get?_insert_self, Option.some.injEq] at hget
    exact .inl ⟨hprobe, hget.symm⟩
  · rw [get?_insert_of_ne hprobe] at hget
    exact .inr ⟨hprobe, hget⟩

/-- What holds of the entries of a map holds with a new one, if it holds of that. -/
theorem forall_get?_insert {motive : κ → υ → Prop} {map : SortedMap κ υ} {key : κ} {value : υ}
    (hmap : ∀ probe found, map.get? probe = some found → motive probe found)
    (hvalue : motive key value) :
    ∀ probe found, (map.insert key value).get? probe = some found → motive probe found := by
  intro probe found hget
  rcases get?_insert_eq_some hget with ⟨rfl, rfl⟩ | ⟨-, hget⟩
  · exact hvalue
  · exact hmap probe found hget

theorem isSome_get?_insert {map : SortedMap κ υ} {key probe : κ} {value : υ}
    (hsome : (map.get? probe).isSome) : ((map.insert key value).get? probe).isSome := by
  by_cases hprobe : probe = key
  · rw [hprobe, get?_insert_self, Option.isSome_some]
  · rwa [get?_insert_of_ne hprobe]

/-- A value of a map with a new entry is the new one or was there. -/
theorem mem_values_insert {map : SortedMap κ υ} {key : κ} {value other : υ}
    (hmem : other ∈ (map.insert key value).values) : other = value ∨ other ∈ map.values := by
  obtain ⟨entry, hentry, rfl⟩ := List.mem_map.1 hmem
  rcases mem_place hentry with rfl | hentry
  · exact .inl rfl
  · exact .inr (List.mem_map.2 ⟨entry, hentry, rfl⟩)

/-- A map holds one entry more after a new key, and no fewer after any. -/
theorem size_insert (map : SortedMap κ υ) (key : κ) (value : υ) :
    map.size ≤ (map.insert key value).size ∧
      (map.get? key = none → (map.insert key value).size = map.size + 1) := by
  have hplace (entries : List (κ × υ)) : entries.length ≤ (place key value entries).length ∧
      (find? key entries = none → (place key value entries).length = entries.length + 1) := by
    induction entries with
    | nil => simp [place]
    | cons head rest ih =>
      simp only [place, find?]
      split <;> simp_all
  exact hplace map.entries

theorem mem_of_get?_ofList {entries : List (κ × υ)} {key : κ} {value : υ}
    (hget : (ofList entries).get? key = some value) : (key, value) ∈ entries := by
  have hfold (entries : List (κ × υ)) (map : SortedMap κ υ)
      (hget : (entries.foldl (fun map (key, value) => map.insert key value) map).get? key =
        some value) : (key, value) ∈ entries ∨ map.get? key = some value := by
    induction entries generalizing map with
    | nil => exact .inr hget
    | cons entry rest ih =>
      rcases ih _ hget with hmem | hinsert
      · exact .inl (List.mem_cons_of_mem entry hmem)
      · by_cases hkey : key = entry.1
        · rw [hkey, get?_insert_self, Option.some.injEq] at hinsert
          rw [hkey, ← hinsert]
          exact .inl List.mem_cons_self
        · rw [get?_insert_of_ne hkey] at hinsert
          exact .inr hinsert
  rcases hfold entries empty hget with hmem | hempty
  · exact hmem
  · cases hempty

theorem ext_get? {left right : SortedMap κ υ} (hget : ∀ key, left.get? key = right.get? key) :
    left = right := by
  obtain ⟨entries, hleft⟩ := left
  obtain ⟨others, hright⟩ := right
  suffices entries = others by cases this; rfl
  simp only [get?] at hget
  induction entries generalizing others with
  | nil =>
    cases others with
    | nil => rfl
    | cons head rest =>
      have := hget head.1
      simp [find?] at this
  | cons head rest ih =>
    obtain ⟨hhead, hrest⟩ := List.pairwise_cons.1 hleft
    cases others with
    | nil =>
      have := hget head.1
      simp [find?] at this
    | cons other tail =>
      obtain ⟨hother, htail⟩ := List.pairwise_cons.1 hright
      have hkey : compare head.1 other.1 = .eq := by
        cases hcompare : compare head.1 other.1 with
        | eq => rfl
        | lt =>
          have h := hget head.1
          have hnone : find? head.1 (other :: tail) = none :=
            find?_eq_none_of_forall fun entry hmem => by
              rcases List.mem_cons.1 hmem with h | h
              · exact h ▸ hcompare
              · exact Std.TransCmp.lt_trans hcompare (hother entry h)
          rw [hnone] at h
          simp [find?] at h
        | gt =>
          have hcompare := Std.OrientedCmp.lt_of_gt hcompare
          have h := hget other.1
          have hnone : find? other.1 (head :: rest) = none :=
            find?_eq_none_of_forall fun entry hmem => by
              rcases List.mem_cons.1 hmem with h | h
              · exact h ▸ hcompare
              · exact Std.TransCmp.lt_trans hcompare (hhead entry h)
          rw [hnone] at h
          simp [find?] at h
      have hsame : head = other := by
        have h := hget head.1
        obtain ⟨key, value⟩ := head
        obtain ⟨key', value'⟩ := other
        cases Std.LawfulEqCmp.eq_of_compare hkey
        simp [find?] at h
        rw [h]
      subst hsame
      congr 1
      apply ih hrest tail htail
      intro key
      have h := hget key
      simp only [find?] at h
      split at h
      next heq =>
        have hkey : key = head.1 := Std.LawfulEqCmp.eq_of_compare heq
        subst hkey
        rw [find?_eq_none_of_forall hhead, find?_eq_none_of_forall hother]
      next => exact h

/-- A map of a list holds something at every key in the list. -/
theorem isSome_get?_ofList {entries : List (κ × υ)} {key : κ} (hmem : key ∈ entries.map (·.1)) :
    ((ofList entries).get? key).isSome := by
  have hfold (entries : List (κ × υ)) (map : SortedMap κ υ)
      (hsome : key ∈ entries.map (·.1) ∨ (map.get? key).isSome) :
      ((entries.foldl (fun map (key, value) => map.insert key value) map).get? key).isSome := by
    induction entries generalizing map with
    | nil => exact hsome.resolve_left List.not_mem_nil
    | cons entry rest ih =>
      refine ih (map.insert entry.1 entry.2) ?_
      by_cases hkey : key = entry.1
      · rw [hkey, get?_insert_self]
        exact .inr rfl
      · rw [get?_insert_of_ne hkey]
        exact hsome.imp_left fun hmem => (List.mem_cons.1 hmem).resolve_left hkey
  exact hfold entries empty (.inl hmem)

/-- The entries of a map make the map, in whatever order they come. -/
theorem ofList_of_perm {entries : List (κ × υ)} {map : SortedMap κ υ}
    (hperm : entries.Perm map.entries) : ofList entries = map := by
  apply ext_get?
  intro key
  have hfound (value : υ) (hget : (ofList entries).get? key = some value) :
      map.get? key = some value :=
    get?_of_mem (hperm.mem_iff.1 (mem_of_get?_ofList hget))
  cases hget : (ofList entries).get? key with
  | some value => rw [hfound value hget]
  | none =>
    cases hmap : map.get? key with
    | none => rfl
    | some value =>
      have hmem : (key, value) ∈ entries := hperm.mem_iff.2 (mem_of_get? hmap)
      have hsome := isSome_get?_ofList (List.mem_map.2 ⟨_, hmem, rfl⟩)
      rw [hget] at hsome
      cases hsome

end SortedMap

end Overprint
