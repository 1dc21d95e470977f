import Overprint.Codec.Content
import Overprint.Invocation
import Overprint.Proofs.Files.Walk
import Overprint.Proofs.Loading
import Overprint.Proofs.Stamping

/-!
# Replacing a file

A file is stamped into another one, or replaced through a copy at a temporary path. The copy holds what
the file held and hides nothing that the script names, so the same document comes out either way. All
reading is done before the one write, so whatever goes wrong before it leaves every file as it was; the
copy can stay behind, and nothing else.
-/

namespace Overprint

open Pdf Script

section Stamp

variable {configuration : Configuration} {script : List Command} {library other : Library}

/-- A library that gives what another one gives for a script makes the same document. -/
theorem stamp_of_follows {source result : Document} {pathname : String}
    (hstamp : (stamp configuration script source pathname library).outcome = .ok result)
    (hfollows : ∀ request ∈ Stock.requests configuration.defaultFont? script,
      other.Follows library request) :
    (stamp configuration script source pathname other).outcome = .ok result := by
  obtain ⟨schedule, stock, found, hschedule, hstock, hfound, hresult⟩ := stamp_eq_ok hstamp
  apply Traced.outcome_bind_eq_ok.2
  refine ⟨schedule, hschedule, ?_⟩
  apply Traced.outcome_bind_eq_ok.2
  refine ⟨stock, Stock.load_of_follows hstock hfollows, ?_⟩
  exact Traced.outcome_bind_eq_ok.2 ⟨found, hfound, hresult⟩

end Stamp

theorem Content.refusesEmpty : formats.RefusesEmpty := by
  intro document hdocument
  have hbytes : ByteArray.empty.toList = [] := by simp
  have hnone : (Content.bytes .empty).document? = none := by
    rw [document?, hbytes]
    rfl
  have hread : (Content.bytes .empty).document?.elim (.error "not a document") .ok =
      (.ok document : Except String Document) := hdocument
  rw [hnone] at hread
  cases hread

namespace Disk

variable {α : Type} {formats : Formats α}

/-- A temporary path at which there is nothing yet, and to which none of the other paths leads. -/
structure IsFresh (disk : Disk α) (temporary : String) (named : List String) : Prop where
  isVacant : disk.isVacant temporary = true
  apart : ∀ path ∈ named, address path ≠ address temporary

/-- The paths that lead to the fonts and pictures of a script. -/
def assetPaths (configuration : Configuration) (script : List Command) : List String :=
  (Stock.requests configuration.defaultFont? script).map Request.path

theorem isFresh_of_temporary? {disk : Disk α} {configuration : Configuration}
    {script : List Command} {input temporary : String} {output? : Option String}
    (htemporary : disk.temporary? ((Invocation.stamp script input output?).paths configuration) =
      some temporary) : disk.IsFresh temporary (assetPaths configuration script) := by
  rw [temporary?] at htemporary
  have hfound := List.find?_some htemporary
  simp only [Bool.and_eq_true, List.all_eq_true, decide_eq_true_eq] at hfound
  obtain ⟨hvacant, hapart⟩ := hfound
  exact ⟨hvacant, fun path hpath => hapart path (List.mem_append_right _ hpath)⟩

section Put

variable {disk : Disk α} {copy names : List String} {content : α}

/-- Disks that differ in nothing a path leads to are the same. -/
theorem eq_of_get? {left right : Disk α} (hdirectories : left.directories = right.directories)
    (hcopies : left.copies = right.copies)
    (hget : ∀ names, left.files.get? names = right.files.get? names) : left = right := by
  obtain ⟨files, directories, copies⟩ := left
  obtain ⟨others, _, _⟩ := right
  cases hdirectories
  cases hcopies
  obtain rfl : files = others := SortedMap.ext_get? hget
  rfl

theorem put_put (disk : Disk α) (names : List String) (first content : α) :
    (disk.put names first).put names content = disk.put names content := by
  refine eq_of_get? (by rfl) (by rfl) fun key => ?_
  by_cases hkey : key = names
  · rw [hkey, put, put, put, SortedMap.get?_insert_self, SortedMap.get?_insert_self]
  · simp only [put, SortedMap.get?_insert_of_ne hkey]

/-- Once the copy is removed, it is as if it had never been there. -/
theorem remove_put_put (hcopy : disk.files.get? copy = none) (hne : names ≠ copy)
    (source content : α) :
    ((disk.put copy source).put names content).remove copy = disk.put names content := by
  refine eq_of_get? (by rfl) (by rfl) fun key => ?_
  by_cases hkey : key = copy
  · subst hkey
    simp only [put, remove, SortedMap.get?_erase_self, SortedMap.get?_insert_of_ne hne.symm, hcopy]
  · by_cases hnames : key = names
    · subst hnames
      simp only [put, remove, SortedMap.get?_erase_of_ne hkey, SortedMap.get?_insert_self]
    · simp only [put, remove, SortedMap.get?_erase_of_ne hkey, SortedMap.get?_insert_of_ne hnames,
        SortedMap.get?_insert_of_ne hkey]

end Put

section Stamped

variable {disk after : Disk α} {configuration : Configuration} {script : List Command}
variable {content source : α} {path other pathname : String} {changed : List String}

/-- Fonts and pictures that are not at the address are what they were. -/
theorem SameBut.follows (hsame : SameBut changed disk after) {request : Request}
    (hne : address request.path ≠ changed) :
    (after.library formats).Follows (disk.library formats) request := by
  cases request with
  | font name =>
    have hne : address name ≠ changed := hne
    intro font hfont
    have hfont : disk.font formats name = .ok font := hfont
    show after.font formats name = .ok font
    rw [Disk.font] at hfont ⊢
    rw [hsame.isFile hne]
    cases hfile : disk.isFile name with
    | true =>
      obtain ⟨content, hread⟩ := isFile_iff.1 hfile
      rw [hfile, hread] at hfont
      rw [hsame.read hne hread]
      exact hfont
    | false =>
      rw [hfile] at hfont
      exact hfont
  | picture name =>
    have hne : address name ≠ changed := hne
    intro picture hpicture
    have hpicture : disk.picture formats name = .ok picture := hpicture
    show after.picture formats name = .ok picture
    rw [Disk.picture] at hpicture ⊢
    cases hread : disk.read name with
    | ok content =>
      rw [hread] at hpicture
      rw [hsame.read hne hread]
      exact hpicture
    | error fault =>
      rw [hread] at hpicture
      cases hpicture

theorem stamped_eq_ok : disk.stamped formats configuration script path pathname = .ok content ↔
    ∃ source document result, disk.read path = .ok source ∧
      formats.document source = .ok document ∧
      (Overprint.stamp configuration script document pathname (disk.library formats)).outcome =
        .ok result ∧
      formats.write result = .ok content := by
  constructor
  · intro hstamped
    obtain ⟨source, hsource, hstamped⟩ := Outcome.bind_eq_ok.1 hstamped
    obtain ⟨document, hdocument, hstamped⟩ := Outcome.bind_eq_ok.1 hstamped
    obtain ⟨result, hresult, hcontent⟩ := Outcome.bind_eq_ok.1 hstamped
    exact ⟨source, document, result, Outcome.mapError_eq_ok.1 hsource,
      Outcome.mapError_eq_ok.1 hdocument, hresult, Outcome.mapError_eq_ok.1 hcontent⟩
  · rintro ⟨source, document, result, hsource, hdocument, hresult, hcontent⟩
    apply Outcome.bind_eq_ok.2
    refine ⟨source, Outcome.mapError_eq_ok.2 hsource, ?_⟩
    apply Outcome.bind_eq_ok.2
    refine ⟨document, Outcome.mapError_eq_ok.2 hdocument, ?_⟩
    exact Outcome.bind_eq_ok.2 ⟨result, hresult, Outcome.mapError_eq_ok.2 hcontent⟩

/-- Two disks that hold the same at two paths, and give the script the same, make the same of them. -/
theorem stamped_of_follows
    (hread : ∀ source, disk.read path = .ok source → after.read other = .ok source)
    (hfollows : ∀ request ∈ Stock.requests configuration.defaultFont? script,
      (after.library formats).Follows (disk.library formats) request)
    (hstamped : disk.stamped formats configuration script path pathname = .ok content) :
    after.stamped formats configuration script other pathname = .ok content := by
  obtain ⟨source, document, result, hsource, hdocument, hresult, hcontent⟩ :=
    stamped_eq_ok.1 hstamped
  exact stamped_eq_ok.2 ⟨source, document, result, hread source hsource, hdocument,
    stamp_of_follows hresult hfollows, hcontent⟩

theorem stamped_of_empty (hempty : formats.RefusesEmpty)
    (hread : disk.read path = .ok formats.empty) :
    disk.stamped formats configuration script path pathname ≠ .ok content := by
  intro hstamped
  obtain ⟨source, document, -, hsource, hdocument, -⟩ := stamped_eq_ok.1 hstamped
  rw [hread, Except.ok.injEq] at hsource
  exact hempty document (hsource ▸ hdocument)

end Stamped

section Copy

variable {disk : Disk α} {configuration : Configuration} {script : List Command}
variable {source content : α} {temporary input pathname : String}

theorem stamped_copy (hfresh : disk.IsFresh temporary (assetPaths configuration script))
    (hread : disk.read input = .ok source) :
    (disk.put (address temporary) source).stamped formats configuration script temporary pathname =
        .ok content ↔
      disk.stamped formats configuration script input pathname = .ok content := by
  have hsame := sameBut_put hfresh.isVacant source
  have hcopy := read_put hfresh.isVacant source
  have hapart (request : Request)
      (hrequest : request ∈ Stock.requests configuration.defaultFont? script) :
      address request.path ≠ address temporary :=
    hfresh.apart _ (List.mem_map_of_mem hrequest)
  constructor
  · apply stamped_of_follows
    · intro found hfound
      rw [← hfound, hcopy, hread]
    · exact fun request hrequest => hsame.symm.follows (hapart request hrequest)
  · apply stamped_of_follows
    · intro found hfound
      rw [← hfound, hcopy, hread]
    · exact fun request hrequest => hsame.follows (hapart request hrequest)

/-- The file that is to be replaced is still what it was when it is copied. If it is the temporary file,
it is the empty one that was just made. -/
theorem read_of_created (hvacant : disk.isVacant temporary = true)
    (hread : (disk.put (address temporary) formats.empty).read input = .ok source) :
    address input = address temporary ∧ source = formats.empty ∨
      address input ≠ address temporary ∧ disk.read input = .ok source := by
  by_cases hinput : address input = address temporary
  · have hget := get?_of_read hread
    rw [hinput, put, SortedMap.get?_insert_self, Option.some.injEq] at hget
    exact .inl ⟨hinput, hget.symm⟩
  · exact .inr ⟨hinput, (sameBut_put hvacant _).symm.read hinput hread⟩

end Copy

section Runs

variable {disk : Disk α} {mishaps : Mishaps α} {configuration : Configuration}
variable {script : List Command} {content : α} {temporary input output pathname : String}

/-- What stamping a file does: nothing; or the document is made, and the output is all that can be
touched. -/
theorem stampFile_cases (disk : Disk α) (mishaps : Mishaps α) (configuration : Configuration)
    (script : List Command) (input output pathname : String) :
    (∃ failure, disk.stampFile formats mishaps configuration script input output pathname =
      (.stopped failure, disk)) ∨
    ∃ content, disk.stamped formats configuration script input pathname = .ok content ∧
      ((∃ fault left?, disk.stampFile formats mishaps configuration script input output pathname =
          (.unwritten fault, Option.elim left? disk (disk.put (address output)))) ∨
        disk.stampFile formats mishaps configuration script input output pathname =
          (.done, disk.put (address output) content)) := by
  rw [stampFile]
  cases mishaps.reading? with
  | some fault => exact .inl ⟨_, rfl⟩
  | none =>
    cases hstamped : disk.stamped formats configuration script input pathname with
    | error failure => exact .inl ⟨_, rfl⟩
    | ok content =>
      refine .inr ⟨content, rfl, ?_⟩
      cases hplace : disk.placeForWriting output with
      | error fault => exact .inl ⟨fault, none, rfl⟩
      | ok names =>
        rw [eq_address_of_placeForWriting hplace]
        cases mishaps.writing? with
        | some mishap => exact .inl ⟨mishap.1, mishap.2, rfl⟩
        | none => exact .inr rfl

theorem stampFile_of_stamped {names : List String}
    (hstamped : disk.stamped formats configuration script input pathname = .ok content)
    (hplace : disk.placeForWriting output = .ok names) :
    disk.stampFile formats {} configuration script input output pathname =
      (.done, disk.put (address output) content) := by
  simp only [stampFile, hstamped, hplace, eq_address_of_placeForWriting hplace]

/-- What replacing a file does. Before the document is made only the copy can appear; once it is made
only the input can be touched, and with the copy removed nothing else has changed. -/
theorem stampInPlace_cases (mishaps : Mishaps α) (hempty : formats.RefusesEmpty)
    (hfresh : disk.IsFresh temporary (assetPaths configuration script)) :
    (∃ failure left?, disk.stampInPlace formats mishaps configuration script temporary input =
      (.stopped failure, Option.elim left? disk (disk.put (address temporary)))) ∨
    ∃ source content, address input ≠ address temporary ∧ disk.read input = .ok source ∧
      disk.stamped formats configuration script input input = .ok content ∧
      let copied := disk.put (address temporary) source
      ((∃ fault left?, disk.stampInPlace formats mishaps configuration script temporary input =
          (.unwritten fault, Option.elim left? copied (copied.put (address input)))) ∨
        (∃ fault, disk.stampInPlace formats mishaps configuration script temporary input =
          (.unremoved fault, copied.put (address input) content)) ∨
        disk.stampInPlace formats mishaps configuration script temporary input =
          (.done, disk.put (address input) content)) := by
  rw [stampInPlace]
  cases mishaps.creation? with
  | some fault => exact .inl ⟨_, none, rfl⟩
  | none =>
    dsimp only
    cases hcopy : (disk.put (address temporary) formats.empty).readForCopy input with
    | error fault => exact .inl ⟨_, some _, rfl⟩
    | ok source =>
      dsimp only
      cases mishaps.copying? with
      | some mishap =>
        obtain ⟨fault, part⟩ := mishap
        dsimp only
        rw [put_put]
        exact .inl ⟨_, some part, rfl⟩
      | none =>
        dsimp only
        rw [put_put]
        rcases stampFile_cases (disk.put (address temporary) source) mishaps configuration script
          temporary input input with ⟨failure, hrun⟩ | ⟨content, hstamped, hrun⟩
        · exact .inl ⟨failure, some source, by rw [hrun]; rfl⟩
        · rcases read_of_created hfresh.isVacant (readForCopy_eq_ok.1 hcopy) with
            ⟨-, rfl⟩ | ⟨hne, hread⟩
          · -- The input leads to the temporary file, so nothing was copied but that file onto itself.
            exact absurd hstamped (stamped_of_empty hempty (read_put hfresh.isVacant _))
          · rw [stamped_copy hfresh hread] at hstamped
            refine .inr ⟨source, content, hne, hread, hstamped, ?_⟩
            rcases hrun with ⟨fault, left?, hrun⟩ | hrun
            · exact .inl ⟨fault, left?, by rw [hrun]⟩
            · rw [hrun]
              cases mishaps.removal? with
              | some fault => exact .inr (.inl ⟨fault, rfl⟩)
              | none =>
                have hgone := remove_put_put (get?_of_isVacant hfresh.isVacant) hne source content
                exact .inr (.inr (congrArg (Prod.mk Ending.done) hgone))

theorem stampInPlace_of_stamped
    (hfresh : disk.IsFresh temporary (assetPaths configuration script))
    (hstamped : disk.stamped formats configuration script input input = .ok content) :
    disk.stampInPlace formats {} configuration script temporary input =
      (.done, disk.put (address input) content) := by
  obtain ⟨source, -, -, hread, -⟩ := stamped_eq_ok.1 hstamped
  have hvacant := hfresh.isVacant
  have hne : address input ≠ address temporary := by
    intro heq
    have hget := get?_of_read hread
    rw [heq, get?_of_isVacant hvacant] at hget
    cases hget
  have hcopy : (disk.put (address temporary) formats.empty).readForCopy input = .ok source :=
    readForCopy_eq_ok.2 ((sameBut_put hvacant _).read hne hread)
  have hplace : (disk.put (address temporary) source).placeForWriting input =
      .ok (address input) :=
    placeForWriting_of_read ((sameBut_put hvacant source).read hne hread)
  have hrun := stampFile_of_stamped ((stamped_copy hfresh hread).2 hstamped) hplace
  simp only [stampInPlace, hcopy, put_put, hrun]
  rw [remove_put_put (get?_of_isVacant hvacant) hne]

theorem put_injective {names : List String} {other : α}
    (heq : disk.put names content = disk.put names other) : content = other := by
  have hget := congrArg (fun disk => disk.files.get? names) heq
  simpa [put] using hget

/-- What a run leaves, by how it ends: before the last write only the copy of a file that is to be
replaced, at the end only what was made of the input, and in between nothing but these two. -/
def Leaves (disk : Disk α) (made : Outcome α) (temporary input : String)
    (output? : Option String) (after : Disk α) : Ending → Prop
  | .stopped _ => after = disk ∨ output? = none ∧ ∃ part, after = disk.put (address temporary) part
  | .unwritten _ | .unremoved _ =>
    ∀ names, names ≠ address (output?.getD input) → names ≠ address temporary →
      after.files.get? names = disk.files.get? names
  | .done =>
    ∃ content, made = .ok content ∧ after = disk.put (address (output?.getD input)) content ∧
      (output? = none → address input ≠ address temporary)

theorem leaves_stamp (mishaps : Mishaps α) (input : String) (hempty : formats.RefusesEmpty)
    (hfresh : disk.IsFresh temporary (assetPaths configuration script)) (output? : Option String) :
    let run := disk.stamp formats mishaps configuration script temporary input output?
    disk.Leaves (disk.stamped formats configuration script input input) temporary input output?
      run.2 run.1 := by
  cases output? with
  | some output =>
    simp only [stamp]
    rcases stampFile_cases disk mishaps configuration script input output input with
      ⟨failure, hrun⟩ | ⟨content, hstamped, ⟨fault, left?, hrun⟩ | hrun⟩
    · rw [hrun]
      exact .inl rfl
    · rw [hrun]
      intro names htarget _
      cases left? with
      | none => rfl
      | some left => exact SortedMap.get?_insert_of_ne htarget
    · rw [hrun]
      exact ⟨content, hstamped, rfl, fun hnone => by cases hnone⟩
  | none =>
    have hcopy {names : List String} (htemporary : names ≠ address temporary) (part : α) :
        (disk.put (address temporary) part).files.get? names = disk.files.get? names :=
      SortedMap.get?_insert_of_ne htemporary
    simp only [stamp]
    rcases stampInPlace_cases mishaps hempty hfresh with
      ⟨failure, left?, hrun⟩ | ⟨source, content, hne, -, hstamped, ⟨fault, left?, hrun⟩ |
        ⟨fault, hrun⟩ | hrun⟩
    · rw [hrun]
      cases left? with
      | none => exact .inl rfl
      | some part => exact .inr ⟨rfl, part, rfl⟩
    · rw [hrun]
      intro names htarget htemporary
      cases left? with
      | none => exact hcopy htemporary source
      | some left => exact (SortedMap.get?_insert_of_ne htarget).trans (hcopy htemporary source)
    · rw [hrun]
      intro names htarget htemporary
      exact (SortedMap.get?_insert_of_ne htarget).trans (hcopy htemporary source)
    · rw [hrun]
      exact ⟨content, hstamped, rfl, fun _ => hne⟩

theorem leaves_of_stamp {mishaps : Mishaps α} {output? : Option String} {ending : Ending}
    {after : Disk α} (hempty : formats.RefusesEmpty)
    (hfresh : disk.IsFresh temporary (assetPaths configuration script))
    (hrun : disk.stamp formats mishaps configuration script temporary input output? = (ending, after)) :
    disk.Leaves (disk.stamped formats configuration script input input) temporary input output? after
      ending := by
  have hleaves := leaves_stamp mishaps input hempty hfresh output?
  rwa [hrun] at hleaves

/-- Whatever happens, nothing is touched but the file to be written and the copy. -/
theorem stamp_leaves_others {mishaps : Mishaps α} {output? : Option String} {ending : Ending}
    {after : Disk α} (hempty : formats.RefusesEmpty)
    (hfresh : disk.IsFresh temporary (assetPaths configuration script))
    (hrun : disk.stamp formats mishaps configuration script temporary input output? = (ending, after))
    {names : List String} (htarget : names ≠ address (output?.getD input))
    (htemporary : names ≠ address temporary) :
    after.files.get? names = disk.files.get? names := by
  have hleaves := leaves_of_stamp hempty hfresh hrun
  cases ending with
  | stopped failure =>
    rcases hleaves with rfl | ⟨-, part, rfl⟩
    · rfl
    · exact SortedMap.get?_insert_of_ne htemporary
  | unwritten fault => exact hleaves names htarget htemporary
  | unremoved fault => exact hleaves names htarget htemporary
  | done =>
    obtain ⟨content, -, rfl, -⟩ := hleaves
    exact SortedMap.get?_insert_of_ne htarget

/-- With nothing in the way, a run writes what is made of the file. -/
theorem stamp_done_iff (hempty : formats.RefusesEmpty)
    (hfresh : disk.IsFresh temporary (assetPaths configuration script)) (input : String)
    {output? : Option String}
    (hplace : ∀ output ∈ output?, (disk.placeForWriting output).isOk = true) (content : α) :
    disk.stamp formats {} configuration script temporary input output? =
        (.done, disk.put (address (output?.getD input)) content) ↔
      disk.stamped formats configuration script input input = .ok content := by
  constructor
  · intro hdone
    obtain ⟨made, hstamped, hput, -⟩ := leaves_of_stamp hempty hfresh hdone
    rwa [put_injective hput]
  · intro hstamped
    cases output? with
    | none => exact stampInPlace_of_stamped hfresh hstamped
    | some output =>
      have hplace := hplace output rfl
      cases hnames : disk.placeForWriting output with
      | ok names => exact stampFile_of_stamped hstamped hnames
      | error fault =>
        rw [hnames] at hplace
        cases hplace

/-- Stamping a file into another one, and in its own place. A run that fails before the last write
leaves every file as it was, and makes none appear but the copy of a file that was to be replaced. A
run that succeeds changes the one file it is to write, and leaves no copy. If nothing goes wrong with
the files themselves, one run succeeds if and only if the other one does, and the same is written. -/
theorem stamp_replaces_or_leaves (mishaps : Mishaps α) (configuration : Configuration)
    (script : List Command) (input : String) (hempty : formats.RefusesEmpty)
    (hfresh : disk.IsFresh temporary (assetPaths configuration script)) :
    (∀ output? failure after,
      disk.stamp formats mishaps configuration script temporary input output? =
        (.stopped failure, after) →
      (∀ names content, disk.files.get? names = some content →
        after.files.get? names = some content) ∧
      ∀ names, after.files.get? names ≠ disk.files.get? names →
        output? = none ∧ names = address temporary) ∧
    (∀ output after,
      disk.stamp formats mishaps configuration script temporary input (some output) =
        (.done, after) →
      ∃ content, disk.stamped formats configuration script input input = .ok content ∧
        after = disk.put (address output) content) ∧
    (∀ after,
      disk.stamp formats mishaps configuration script temporary input none = (.done, after) →
      (∃ content, disk.stamped formats configuration script input input = .ok content ∧
        after = disk.put (address input) content) ∧
      after.files.get? (address temporary) = none) ∧
    ∀ output, (disk.placeForWriting output).isOk = true →
      ((∃ after, disk.stamp formats {} configuration script temporary input none = (.done, after)) ↔
        ∃ after, disk.stamp formats {} configuration script temporary input (some output) =
          (.done, after)) ∧
      ∀ content,
        disk.stamp formats {} configuration script temporary input none =
            (.done, disk.put (address input) content) ↔
          disk.stamp formats {} configuration script temporary input (some output) =
            (.done, disk.put (address output) content) := by
  refine ⟨?_, ?_, ?_, ?_⟩
  · intro output? failure after hstopped
    rcases leaves_of_stamp hempty hfresh hstopped with rfl | ⟨rfl, part, rfl⟩
    · exact ⟨fun _ _ hget => hget, fun _ hchanged => absurd rfl hchanged⟩
    · refine ⟨fun names content hget => ?_, fun names hchanged => ⟨rfl, ?_⟩⟩
      · have hne : names ≠ address temporary := by
          rintro rfl
          rw [get?_of_isVacant hfresh.isVacant] at hget
          cases hget
        rwa [put, SortedMap.get?_insert_of_ne hne]
      · refine Classical.not_not.1 fun hne => hchanged ?_
        exact SortedMap.get?_insert_of_ne hne
  · intro output after hdone
    obtain ⟨content, hstamped, hafter, -⟩ := leaves_of_stamp hempty hfresh hdone
    exact ⟨content, hstamped, hafter⟩
  · intro after hdone
    obtain ⟨content, hstamped, hafter, hne⟩ := leaves_of_stamp hempty hfresh hdone
    refine ⟨⟨content, hstamped, hafter⟩, ?_⟩
    rw [hafter]
    exact (SortedMap.get?_insert_of_ne (hne rfl).symm).trans (get?_of_isVacant hfresh.isVacant)
  · intro output hplace
    have hnone : ∀ output ∈ (none : Option String), (disk.placeForWriting output).isOk = true := by
      simp
    have hsome : ∀ other ∈ some output, (disk.placeForWriting other).isOk = true := by
      simpa using hplace
    have hinPlace := stamp_done_iff hempty hfresh input hnone
    have hexplicit := stamp_done_iff hempty hfresh input hsome
    refine ⟨⟨?_, ?_⟩, fun content => (hinPlace content).trans (hexplicit content).symm⟩
    · rintro ⟨after, hdone⟩
      obtain ⟨content, hstamped, -⟩ := leaves_of_stamp hempty hfresh hdone
      exact ⟨_, (hexplicit content).2 hstamped⟩
    · rintro ⟨after, hdone⟩
      obtain ⟨content, hstamped, -⟩ := leaves_of_stamp hempty hfresh hdone
      exact ⟨_, (hinPlace content).2 hstamped⟩

/-- A document with one page, and a script that names a font. -/
theorem stamp_replaces_or_leaves_of_one_page :
    let source := Document.ofObjects
      [(⟨1, 0⟩, .dictionary [("Type", .name "Catalog"), ("Pages", .reference ⟨2, 0⟩)]),
        (⟨2, 0⟩, .dictionary [("Type", .name "Pages"), ("Kids", .array [.reference ⟨3, 0⟩])]),
        (⟨3, 0⟩, .dictionary [("Type", .name "Page"), ("Rotate", .integer 90)])]
      [("Root", .reference ⟨1, 0⟩)]
    let formats := Content.formats
    let disk : Disk Content := { files := .ofList [(["in.pdf"], .document source)] }
    let script : List Command :=
      [{ verb := .fontFile, operands := [⟨"Courier"⟩] }, { verb := .endPath }]
    let temporary := "/tmp/stamppdf-0.pdf"
    formats.RefusesEmpty ∧ disk.IsFresh temporary (assetPaths {} script) ∧ ∃ content,
      disk.stamp formats {} {} script temporary "in.pdf" none = (.done, disk.put ["in.pdf"] content) ∧
      disk.stamp formats {} {} script temporary "in.pdf" (some "out.pdf") =
        (.done, disk.put ["out.pdf"] content) := by
  intro source formats disk script temporary
  have hempty : formats.RefusesEmpty := Content.refusesEmpty
  have hfresh : disk.IsFresh temporary (assetPaths {} script) :=
    ⟨by decide +kernel, by decide +kernel⟩
  obtain ⟨-, -, hinPlace, hagree⟩ := stamp_replaces_or_leaves {} {} script "in.pdf" hempty hfresh
  have hdone : (disk.stamp formats {} {} script temporary "in.pdf" none).1 = .done := by
    decide +kernel
  obtain ⟨content, -, hafter⟩ := (hinPlace _ (Prod.ext hdone rfl)).1
  have hin : address "in.pdf" = ["in.pdf"] := by decide +kernel
  have hout : address "out.pdf" = ["out.pdf"] := by decide +kernel
  have hreplaced : disk.stamp formats {} {} script temporary "in.pdf" none =
      (.done, disk.put (address "in.pdf") content) := Prod.ext hdone hafter
  have hwritten := ((hagree "out.pdf" (by decide +kernel)).2 content).1 hreplaced
  rw [hin] at hreplaced
  rw [hout] at hwritten
  exact ⟨hempty, hfresh, content, hreplaced, hwritten⟩

end Runs

end Disk

end Overprint
