import Overprint.Disk

/-!
# Where paths lead

A walk along a path visits directories only, and ends where the names of the path lead. A file that is
put where there was none makes no directory appear or disappear, so every path that does not lead to it
leads where it led before.
-/

namespace Overprint

namespace Disk

variable {α : Type} {disk after : Disk α} {directory names changed : List String} {content : α}
variable {path : String}

/-- Where a walk that did not end in a directory ended. -/
def Place.names? : Place α → Option (List String)
  | .file names _ | .vacant names => some names
  | .directory => none

def Place.Stands (disk : Disk α) : Place α → Prop
  | .file names content => disk.files.get? names = some content
  | .vacant names => disk.files.get? names = none
  | .directory => True

/-- What is at an address that is no directory. -/
def found (disk : Disk α) (names : List String) : Place α :=
  match disk.files.get? names with
  | some content => .file names content
  | none => .vacant names

theorem names?_found (disk : Disk α) (names : List String) :
    (disk.found names).names? = some names := by
  rw [found]
  split <;> rfl

theorem stands_found (disk : Disk α) (names : List String) :
    (disk.found names).Stands disk := by
  rw [found]
  split <;> assumption

section Walk

/-- One segment of a walk. -/
theorem walk_cons_eq_ok {segment : List Char} {rest : List (List Char)} {place : Place α} :
    disk.walk directory (segment :: rest) = .ok place ↔
      ¬ nameLimit < (String.ofList segment).utf8ByteSize ∧
        (disk.isDirectory (step directory segment) = true ∧
            disk.walk (step directory segment) rest = .ok place ∨
          disk.isDirectory (step directory segment) = false ∧ rest = [] ∧
            place = disk.found (step directory segment)) := by
  rw [walk]
  split
  · rename_i hlong
    simp [hlong]
  · rename_i hshort
    simp only [hshort, not_false_eq_true, true_and]
    cases disk.isDirectory (step directory segment) with
    | true => simp
    | false =>
      rw [found]
      cases disk.files.get? (step directory segment) <;> cases rest <;> simp [eq_comm]

/-- A walk finds what is stored, and ends where the names of the path lead. -/
theorem walk_spec {segments : List (List Char)} {place : Place α}
    (hwalk : disk.walk directory segments = .ok place) :
    place.Stands disk ∧ ∀ names, place.names? = some names →
      names = segments.foldl step directory := by
  induction segments generalizing directory with
  | nil =>
    rw [walk, Except.ok.injEq] at hwalk
    subst hwalk
    exact ⟨trivial, fun names hnames => by cases hnames⟩
  | cons segment rest ih =>
    obtain ⟨-, ⟨-, hwalk⟩ | ⟨-, rfl, rfl⟩⟩ := walk_cons_eq_ok.1 hwalk
    · exact ih hwalk
    · refine ⟨stands_found disk _, fun names hnames => ?_⟩
      rw [names?_found, Option.some.injEq] at hnames
      exact hnames.symm

theorem step_cases (directory : List String) (segment : List Char) :
    step directory segment <+: directory ∨
      ∃ last, step directory segment = directory ++ [last] := by
  rw [step]
  split
  · exact .inl List.prefix_rfl
  · split
    · rw [above]
      split
      · exact .inr ⟨_, rfl⟩
      · exact .inr ⟨_, rfl⟩
      · exact .inl List.prefix_rfl
      · exact .inl (List.dropLast_prefix directory)
    · exact .inr ⟨_, rfl⟩

/-- What lies on the way to where one segment leads lies on the way to the directory. -/
theorem isDirectory_of_prefix_step
    (hdirectory : ∀ names, names <+: directory → disk.isDirectory names = true)
    {segment : List Char} (hnames : names <+: step directory segment)
    (hne : names ≠ step directory segment) : disk.isDirectory names = true := by
  rcases step_cases directory segment with hback | ⟨last, hlast⟩
  · exact hdirectory names (hnames.trans hback)
  · rw [hlast] at hnames hne
    exact hdirectory names ((List.prefix_concat_iff.1 hnames).resolve_left hne)

theorem isDirectory_of_prefix_walk
    (hdirectory : ∀ names, names <+: directory → disk.isDirectory names = true)
    {segments : List (List Char)} {place : Place α} {target : List String}
    (hwalk : disk.walk directory segments = .ok place) (htarget : place.names? = some target)
    (hnames : names <+: target) (hne : names ≠ target) : disk.isDirectory names = true := by
  induction segments generalizing directory with
  | nil =>
    rw [walk, Except.ok.injEq] at hwalk
    subst hwalk
    cases htarget
  | cons segment rest ih =>
    obtain ⟨-, ⟨hstep, hwalk⟩ | ⟨-, rfl, rfl⟩⟩ := walk_cons_eq_ok.1 hwalk
    · refine ih (fun names hnames => ?_) hwalk
      by_cases hne : names = step directory segment
      · rw [hne, hstep]
      · exact isDirectory_of_prefix_step hdirectory hnames hne
    · rw [names?_found, Option.some.injEq] at htarget
      subst htarget
      exact isDirectory_of_prefix_step hdirectory hnames hne

end Walk

section Locate

theorem isDirectory_of_prefix_start (path : String) (hnames : names <+: start path) :
    disk.isDirectory names = true := by
  have hroot : disk.isDirectory [] = true := by simp [isDirectory]
  rw [start] at hnames
  split at hnames
  · rcases List.prefix_cons_iff.1 hnames with rfl | ⟨rest, rfl, hrest⟩
    · exact hroot
    · simp [List.prefix_nil.1 hrest, isDirectory]
  · rw [List.prefix_nil.1 hnames]
    exact hroot

theorem locate_eq_ok {place : Place α} :
    disk.locate path = .ok place ↔
      checkPath path = .ok () ∧ disk.walk (start path) (Text.Path.segments path) = .ok place := by
  rw [locate]
  cases checkPath path with
  | error fault => simp [bind, Except.bind]
  | ok => simp [bind, Except.bind]

theorem read_eq_ok : disk.read path = .ok content ↔
    ∃ names, disk.locate path = .ok (.file names content) := by
  rw [read]
  cases disk.locate path with
  | error fault => simp [bind, Except.bind]
  | ok place => cases place <;> simp [bind, Except.bind, pure, Except.pure]

theorem get?_of_read (hread : disk.read path = .ok content) :
    disk.files.get? (address path) = some content := by
  obtain ⟨names, hlocate⟩ := read_eq_ok.1 hread
  obtain ⟨hget, hnames⟩ := walk_spec (locate_eq_ok.1 hlocate).2
  obtain rfl : names = address path := hnames names rfl
  exact hget

theorem readForCopy_eq_ok :
    disk.readForCopy path = .ok content ↔ disk.read path = .ok content := by
  rw [read_eq_ok, readForCopy]
  cases disk.locate path with
  | error fault => simp [bind, Except.bind]
  | ok place => cases place <;> simp [bind, Except.bind, pure, Except.pure]

theorem isFile_iff : disk.isFile path = true ↔ ∃ content, disk.read path = .ok content := by
  simp only [read_eq_ok]
  rw [isFile]
  cases disk.locate path with
  | error fault => simp
  | ok place => cases place <;> simp

theorem isVacant_iff : disk.isVacant path = true ↔
    disk.locate path = .ok (.vacant (address path)) := by
  rw [isVacant]
  cases hlocate : disk.locate path with
  | error fault => simp
  | ok place =>
    cases place with
    | vacant names =>
      have := (walk_spec (locate_eq_ok.1 hlocate).2).2 names rfl
      simp [this, address]
    | _ => simp

end Locate

section Same

/-- Two stores with the same directories, and the same files but at one address. -/
structure SameBut (changed : List String) (disk after : Disk α) : Prop where
  isDirectory : ∀ names, after.isDirectory names = disk.isDirectory names
  get? : ∀ names, names ≠ changed → after.files.get? names = disk.files.get? names

theorem SameBut.symm (hsame : SameBut changed disk after) : SameBut changed after disk where
  isDirectory names := (hsame.isDirectory names).symm
  get? names hne := (hsame.get? names hne).symm

/-- A walk to anywhere else ends where it ended. Only the reason why a walk fails can be another one, if
it goes on behind the address. -/
theorem SameBut.walk (hsame : SameBut changed disk after) {segments : List (List Char)}
    {place : Place α} (hne : segments.foldl step directory ≠ changed)
    (hwalk : disk.walk directory segments = .ok place) :
    after.walk directory segments = .ok place := by
  induction segments generalizing directory with
  | nil => exact hwalk
  | cons segment rest ih =>
    obtain ⟨hshort, hnext⟩ := walk_cons_eq_ok.1 hwalk
    refine walk_cons_eq_ok.2 ⟨hshort, ?_⟩
    rw [hsame.isDirectory]
    rcases hnext with ⟨hdirectory, hwalk⟩ | ⟨hdirectory, rfl, hplace⟩
    · exact .inl ⟨hdirectory, ih hne hwalk⟩
    · have hne : step directory segment ≠ changed := hne
      exact .inr ⟨hdirectory, rfl, by rw [hplace, found, found, hsame.get? _ hne]⟩

theorem SameBut.read (hsame : SameBut changed disk after) (hne : address path ≠ changed)
    (hread : disk.read path = .ok content) : after.read path = .ok content := by
  obtain ⟨names, hlocate⟩ := read_eq_ok.1 hread
  obtain ⟨hcheck, hwalk⟩ := locate_eq_ok.1 hlocate
  exact read_eq_ok.2 ⟨names, locate_eq_ok.2 ⟨hcheck, hsame.walk hne hwalk⟩⟩

theorem SameBut.isFile (hsame : SameBut changed disk after) (hne : address path ≠ changed) :
    after.isFile path = disk.isFile path := by
  rw [Bool.eq_iff_iff, isFile_iff, isFile_iff]
  exact ⟨fun ⟨content, hread⟩ => ⟨content, hsame.symm.read hne hread⟩,
    fun ⟨content, hread⟩ => ⟨content, hsame.read hne hread⟩⟩

theorem isDirectory_iff : disk.isDirectory names = true ↔
    (names.all (· = "..") = true ∨ names = ["/"] ∨ names ∈ disk.directories) ∨
      ∃ file, (disk.files.get? file).isSome ∧ names <+: file ∧ file ≠ names := by
  simp only [isDirectory, Bool.or_eq_true, List.any_eq_true, SortedMap.mem_keys_iff,
    Bool.and_eq_true, List.isPrefixOf_iff_prefix, decide_eq_true_eq, List.contains_iff_mem, or_assoc,
    ne_eq]

theorem isDirectory_put (hway : ∀ names, names <+: changed → names ≠ changed →
    disk.isDirectory names = true) (content : α) (names : List String) :
    (disk.put changed content).isDirectory names = disk.isDirectory names := by
  rw [Bool.eq_iff_iff]
  constructor
  · intro hafter
    obtain hfixed | ⟨file, hfile, hbegins, hne⟩ := isDirectory_iff.1 hafter
    · exact isDirectory_iff.2 (.inl hfixed)
    · by_cases heq : file = changed
      · subst heq
        exact hway names hbegins hne.symm
      · refine isDirectory_iff.2 (.inr ⟨file, ?_, hbegins, hne⟩)
        rwa [put, SortedMap.get?_insert_of_ne heq] at hfile
  · intro hbefore
    obtain hfixed | ⟨file, hfile, hbegins, hne⟩ := isDirectory_iff.1 hbefore
    · exact isDirectory_iff.2 (.inl hfixed)
    · exact isDirectory_iff.2 (.inr ⟨file, SortedMap.isSome_get?_insert hfile, hbegins, hne⟩)

theorem sameBut_put (hvacant : disk.isVacant path = true) (content : α) :
    SameBut (address path) disk (disk.put (address path) content) where
  isDirectory := by
    have hwalk := (locate_eq_ok.1 (isVacant_iff.1 hvacant)).2
    apply isDirectory_put
    intro names hnames hne
    exact isDirectory_of_prefix_walk (fun _ => isDirectory_of_prefix_start path) hwalk rfl hnames hne
  get? names hne := SortedMap.get?_insert_of_ne hne

theorem get?_of_isVacant (hvacant : disk.isVacant path = true) :
    disk.files.get? (address path) = none :=
  (walk_spec (locate_eq_ok.1 (isVacant_iff.1 hvacant)).2).1

/-- Where a walk ended in front of a vacant place, it finds the file that is put there. -/
theorem SameBut.walk_changed (hsame : SameBut changed disk after)
    (hget : after.files.get? changed = some content) {segments : List (List Char)}
    (hwalk : disk.walk directory segments = .ok (.vacant changed)) :
    after.walk directory segments = .ok (.file changed content) := by
  induction segments generalizing directory with
  | nil => cases hwalk
  | cons segment rest ih =>
    obtain ⟨hshort, hnext⟩ := walk_cons_eq_ok.1 hwalk
    refine walk_cons_eq_ok.2 ⟨hshort, ?_⟩
    rw [hsame.isDirectory]
    rcases hnext with ⟨hdirectory, hwalk⟩ | ⟨hdirectory, rfl, hplace⟩
    · exact .inl ⟨hdirectory, ih hwalk⟩
    · have hnames := congrArg Place.names? hplace
      rw [names?_found] at hnames
      obtain rfl : changed = step directory segment := Option.some.inj hnames
      exact .inr ⟨hdirectory, rfl, by rw [found, hget]⟩

theorem read_put (hvacant : disk.isVacant path = true) (content : α) :
    (disk.put (address path) content).read path = .ok content := by
  obtain ⟨hcheck, hwalk⟩ := locate_eq_ok.1 (isVacant_iff.1 hvacant)
  have hget := SortedMap.get?_insert_self disk.files (address path) content
  exact read_eq_ok.2 ⟨address path, locate_eq_ok.2
    ⟨hcheck, (sameBut_put hvacant content).walk_changed hget hwalk⟩⟩

end Same

section Writing

theorem walk_slash (hdirectory : disk.isDirectory directory = true) {segments : List (List Char)}
    {place : Place α} (hwalk : disk.walk directory (segments ++ [[]]) = .ok place) :
    place = .directory := by
  induction segments generalizing directory with
  | nil =>
    obtain ⟨-, ⟨-, hwalk⟩ | ⟨hnot, -⟩⟩ := walk_cons_eq_ok.1 hwalk
    · exact (Except.ok.inj hwalk).symm
    · have hstay : step directory [] = directory := by simp [step]
      rw [hstay, hdirectory] at hnot
      cases hnot
  | cons segment rest ih =>
    obtain ⟨-, ⟨hstep, hwalk⟩ | ⟨-, hnil, -⟩⟩ := walk_cons_eq_ok.1 hwalk
    · exact ih hstep hwalk
    · simp at hnil

theorem withoutEndSlashes_eq (hread : disk.read path = .ok content) :
    withoutEndSlashes path = path := by
  obtain ⟨names, hlocate⟩ := read_eq_ok.1 hread
  obtain ⟨-, hwalk⟩ := locate_eq_ok.1 hlocate
  have hlast : path.toList.getLast? ≠ some '/' := by
    intro hlast
    obtain ⟨start, hstart⟩ := List.getLast?_eq_some_iff.1 hlast
    have hsegments : Text.Path.segments path = start.splitOn '/' ++ [[]] := by
      rw [Text.Path.segments, hstart]
      exact List.splitOnP_append_cons start [] (by simp)
    rw [hsegments] at hwalk
    cases walk_slash (isDirectory_of_prefix_start path List.prefix_rfl) hwalk
  rw [withoutEndSlashes]
  cases hreverse : path.toList.reverse with
  | nil => simpa using hreverse
  | cons last rest =>
    have hne : last ≠ '/' := by
      rintro rfl
      rw [List.getLast?_eq_head?_reverse, hreverse] at hlast
      exact hlast rfl
    rw [List.dropWhile_cons_of_neg (by simpa using hne), ← hreverse, List.reverse_reverse,
      String.ofList_toList]

theorem ne_empty_of_checkPath (hcheck : checkPath path = .ok ()) : path ≠ "" := by
  rintro rfl
  cases hcheck

theorem placeForWriting_eq_ok : disk.placeForWriting path = .ok names ↔
    withoutEndSlashes path = path ∧
      ∃ place, disk.locate path = .ok place ∧ place.names? = some names := by
  have hchecked {place : Place α} (hlocate : disk.locate path = .ok place) :
      checkPath path = .ok () := (locate_eq_ok.1 hlocate).1
  rw [placeForWriting]
  constructor
  · intro hplace
    simp only [bind, Except.bind] at hplace
    split at hplace
    · cases hplace
    · split at hplace
      · cases hplace
      · split at hplace
        · cases hplace
        · rename_i place hlocate
          cases place with
          | directory => cases hplace
          | _ =>
            simp only at hplace
            split at hplace
            · rename_i hbare
              rw [hbare] at hlocate
              exact ⟨hbare, _, hlocate, congrArg some (Except.ok.inj hplace)⟩
            · cases hplace
  · rintro ⟨hbare, place, hlocate, hnames⟩
    have hne := ne_empty_of_checkPath (hchecked hlocate)
    simp only [bind, Except.bind, hchecked hlocate, hbare, hlocate, if_neg hne]
    cases place with
    | directory => cases hnames
    | _ =>
      simp only [← Option.some.inj hnames]
      rfl

theorem placeForWriting_of_read (hread : disk.read path = .ok content) :
    disk.placeForWriting path = .ok (address path) := by
  obtain ⟨names, hlocate⟩ := read_eq_ok.1 hread
  have hnames : names = address path := (walk_spec (locate_eq_ok.1 hlocate).2).2 names rfl
  exact placeForWriting_eq_ok.2 ⟨withoutEndSlashes_eq hread, _, hlocate, congrArg some hnames⟩

/-- What is written to a path is at the address of the path. -/
theorem eq_address_of_placeForWriting (hplace : disk.placeForWriting path = .ok names) :
    names = address path := by
  obtain ⟨-, place, hlocate, hnames⟩ := placeForWriting_eq_ok.1 hplace
  exact (walk_spec (locate_eq_ok.1 hlocate).2).2 names hnames

end Writing

end Disk

end Overprint
