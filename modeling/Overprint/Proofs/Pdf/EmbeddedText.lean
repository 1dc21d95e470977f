import Overprint.Proofs.Pdf.Completion
import Overprint.Proofs.Pdf.GlyphUse

/-!
# Reading embedded text back

While a press is used, texts in a font may come between anything else that is printed, on any pages.
All that matters for the font is which texts those were: its entry holds the glyphs that they used,
and when the press is finished, the font is written with the widths of these glyphs and with a map
that leads back to the characters. So the operands that were given out can be read again.
-/

namespace Overprint.Pdf

open Drawing

inductive Task where
  | useFont (face : Font)
  | encodeText (face : Font) (text : String)
  | usePicture (picture : Picture)
  | attach (page : ObjectId) (stamp : Stamp)

namespace Task

def font? : Task → Option Font
  | .useFont face | .encodeText face _ => some face
  | .usePicture _ | .attach .. => none

/-- The text that a task shows in a font with a key. -/
def text? (key : String) : Task → Option String
  | .encodeText face text => if face.key = key then some text else none
  | _ => none

end Task

namespace Press

/-- The press after a task, whether or not it succeeds. -/
def after (press : Press) : Task → Press
  | .useFont face => (press.useFont face).2
  | .encodeText face text => (press.encodeText face text).2
  | .usePicture picture => (press.usePicture picture).2
  | .attach page stamp => (press.attach page stamp).2

/-- The operand that a task gives for a text in a font with a key. -/
def operand? (press : Press) (key : String) : Task → Option Object
  | .encodeText face text => if face.key = key then some (press.encodeText face text).1 else none
  | _ => none

/-- The operands that tasks give for the texts in a font with a key. -/
def operands (key : String) : Press → List Task → List Object
  | _, [] => []
  | press, task :: rest => (press.operand? key task).toList ++ operands key (press.after task) rest

section Entries

variable {press : Press} {key : String} {entry : FontEntry} {font : EmbeddedFont}

theorem useFont_of_get? {face : Font} (hget : press.fonts.get? face.key = some entry) :
    press.useFont face = (entry, press) := by
  simp only [useFont, hget]

theorem get?_useFont_of_ne {face : Font} (hne : face.key ≠ key) :
    (press.useFont face).2.fonts.get? key = press.fonts.get? key := by
  simp only [useFont]
  split
  · rfl
  · exact SortedMap.get?_insert_of_ne (Ne.symm hne)

theorem get?_encodeText_of_ne {face : Font} (hne : face.key ≠ key) (text : String) :
    (press.encodeText face text).2.fonts.get? key = press.fonts.get? key := by
  simp only [encodeText]
  split
  · exact get?_useFont_of_ne hne
  · exact (SortedMap.get?_insert_of_ne (Ne.symm hne)).trans (get?_useFont_of_ne hne)

theorem fonts_usePicture (picture : Picture) : (press.usePicture picture).2.fonts = press.fonts := by
  simp only [usePicture]
  split <;> rfl

theorem fonts_attach (page : ObjectId) (stamp : Stamp) :
    (press.attach page stamp).2.fonts = press.fonts := by
  have hplaced : (press.stampedContents page stamp).2.fonts = press.fonts :=
    (register_arrange _ _ _).1
  rw [attach_eq]
  dsimp only
  split <;> exact hplaced

theorem encodeText_useFont (face : Font) (text : String) :
    (press.useFont face).2.encodeText face text = press.encodeText face text := by
  rw [encodeText, useFont_of_get? (press.get?_useFont face), encodeText]

/-- Of the tasks only texts in an embedded font change its entry: they add the glyphs that they use,
and are given as glyphs. -/
theorem get?_after (hget : press.fonts.get? key = some entry) (hfont : entry.font = .embedded font)
    (task : Task) :
    (press.after task).fonts.get? key =
        some { entry with uses := (task.text? key).elim entry.uses (entry.uses.note font ·) } ∧
      press.operand? key task = (task.text? key).map fun text => .hexText (font.encode text) := by
  cases task with
  | useFont face =>
    refine ⟨?_, rfl⟩
    by_cases hkey : face.key = key
    · subst hkey
      rw [after, useFont_of_get? hget]
      exact hget
    · exact (get?_useFont_of_ne hkey).trans hget
  | encodeText face text =>
    by_cases hkey : face.key = key
    · subst hkey
      have hencode : press.encodeText face text = (.hexText (font.encode text),
          { press with fonts := press.fonts.insert face.key
                        { entry with uses := entry.uses.note font text } }) := by
        rw [encodeText, useFont_of_get? hget]
        simp only [hfont]
      rw [after, operand?, hencode, Task.text?, if_pos rfl]
      exact ⟨SortedMap.get?_insert_self .., if_pos rfl⟩
    · rw [after, operand?, Task.text?, if_neg hkey, if_neg hkey]
      exact ⟨(get?_encodeText_of_ne hkey text).trans hget, rfl⟩
  | usePicture picture =>
    rw [after, fonts_usePicture]
    exact ⟨hget, rfl⟩
  | attach page stamp =>
    rw [after, fonts_attach]
    exact ⟨hget, rfl⟩

theorem get?_foldl_after (hget : press.fonts.get? key = some entry)
    (hfont : entry.font = .embedded font) (tasks : List Task) :
    (tasks.foldl after press).fonts.get? key = some { entry with
        uses := (tasks.filterMap (Task.text? key)).foldl (·.note font ·) entry.uses } ∧
      press.operands key tasks =
        (tasks.filterMap (Task.text? key)).map fun text => .hexText (font.encode text) := by
  induction tasks generalizing press entry with
  | nil => exact ⟨hget, rfl⟩
  | cons task rest ih =>
    obtain ⟨hafter, hoperand⟩ := get?_after hget hfont task
    obtain ⟨hfinal, hoperands⟩ := ih hafter hfont
    rw [List.foldl_cons, operands, hfinal, hoperands, hoperand]
    cases htext : task.text? key <;> simp [htext]

theorem get?_after_of_none (hget : press.fonts.get? key = none) {task : Task}
    (htask : ∀ face ∈ task.font?, face.key ≠ key) :
    (press.after task).fonts.get? key = none ∧ press.operand? key task = none ∧
      task.text? key = none := by
  cases task with
  | useFont face => exact ⟨(get?_useFont_of_ne (htask face rfl)).trans hget, rfl, rfl⟩
  | encodeText face text =>
    have hkey := htask face rfl
    rw [operand?, Task.text?, if_neg hkey]
    exact ⟨(get?_encodeText_of_ne hkey text).trans hget, rfl, if_neg hkey⟩
  | usePicture picture =>
    rw [after, fonts_usePicture]
    exact ⟨hget, rfl, rfl⟩
  | attach page stamp =>
    rw [after, fonts_attach]
    exact ⟨hget, rfl, rfl⟩

/-- The first task that needs a font with a key makes its entry. -/
theorem exists_entry (hget : press.fonts.get? key = none) {tasks : List Task}
    (hfirst : (tasks.filterMap Task.font?).find? (·.key = key) = some (.embedded font)) :
    ∃ entry, (tasks.foldl after press).fonts.get? key = some entry ∧ entry.font = .embedded font ∧
      entry.uses = usesOf font (tasks.filterMap (Task.text? key)) ∧
      press.operands key tasks =
        (tasks.filterMap (Task.text? key)).map fun text => .hexText (font.encode text) := by
  induction tasks generalizing press with
  | nil => cases hfirst
  | cons task rest ih =>
    by_cases htask : ∀ face ∈ task.font?, face.key ≠ key
    · obtain ⟨hafter, hoperand, htext⟩ := get?_after_of_none hget htask
      have hrest : (rest.filterMap Task.font?).find? (·.key = key) = some (.embedded font) := by
        cases hface : task.font? with
        | none => rwa [List.filterMap_cons_none hface] at hfirst
        | some face =>
          rwa [List.filterMap_cons_some hface,
            List.find?_cons_of_neg (by simpa using htask face hface)] at hfirst
      obtain ⟨entry, hentry⟩ := ih hafter hrest
      rw [List.foldl_cons, operands, hoperand, List.filterMap_cons_none htext]
      exact ⟨entry, hentry⟩
    · obtain ⟨face, hface, hkey⟩ : ∃ face, task.font? = some face ∧ face.key = key := by
        simpa using htask
      rw [List.filterMap_cons_some hface, List.find?_cons_of_pos (by simpa using hkey)] at hfirst
      cases hfirst
      let used := (press.useFont (.embedded font)).2
      let entry := (press.useFont (.embedded font)).1
      have hused : used.fonts.get? key = some entry := hkey ▸ press.get?_useFont (.embedded font)
      have hentry : entry.font = .embedded font ∧ entry.uses = ∅ := by
        rw [← hkey] at hget
        simp [entry, useFont, hget]
      have hsame : press.after task = used.after task ∧
          press.operand? key task = used.operand? key task := by
        cases task with
        | useFont face =>
          cases hface
          have hagain : used.useFont (.embedded font) = (entry, used) :=
            useFont_of_get? (hkey ▸ hused)
          rw [after, after, hagain]
          exact ⟨rfl, rfl⟩
        | encodeText face text =>
          cases hface
          rw [after, after, operand?, operand?, encodeText_useFont]
          exact ⟨rfl, rfl⟩
        | usePicture | attach => cases hface
      obtain ⟨hfinal, hoperands⟩ := get?_foldl_after hused hentry.1 (task :: rest)
      rw [List.foldl_cons, operands, hsame.1, hsame.2]
      refine ⟨_, hfinal, hentry.1, ?_, hoperands⟩
      rw [hentry.2]
      rfl

end Entries

/-- A document in which the numbers that were kept for embedded fonts are still free. -/
structure Awaits (document : Document) (fonts : SortedMap String FontEntry) : Prop where
  numbered : document.Numbered
  ids : Apart FontEntry.id fonts
  range : ∀ key entry, fonts.get? key = some entry → entry.id.number ≤ document.lastNumber
  free : ∀ key entry font, fonts.get? key = some entry → entry.font = .embedded font →
    document.objects.get? entry.id = none

namespace Awaits

variable {document grown : Document} {fonts : SortedMap String FontEntry}
  {pages : ObjectId → Prop} {press : Press}

/-- Nothing is written at a free number while other objects are added and pages are written. -/
theorem grow (hawaits : Awaits document fonts) (hgrows : document.Grows pages grown) :
    Awaits grown fonts where
  numbered := hgrows.numbered
  ids := hawaits.ids
  range key entry hget := Nat.le_trans (hawaits.range key entry hget) hgrows.overprints.last
  free key entry font hget hfont := by
    have hfree := hawaits.free key entry font hget hfont
    have hpage : ¬ pages entry.id := by
      intro hpage
      obtain ⟨old, _, hold, -⟩ := hgrows.overprints.page entry.id hpage
      rw [hfree] at hold
      cases hold
    rw [hgrows.overprints.kept entry.id (hawaits.range key entry hget) hpage, hfree]

theorem add (hawaits : Awaits document fonts) (object : Object) :
    Awaits (document.add object).2 fonts :=
  hawaits.grow ((Document.Grows.refl hawaits.numbered).add hawaits.numbered object)

/-- A font may be put on record with a new number. -/
theorem insert (hawaits : Awaits document fonts) {key : String} {entry : FontEntry}
    (hnumbered : grown.Numbered) (hlast : document.lastNumber < entry.id.number)
    (hid : entry.id.number ≤ grown.lastNumber)
    (hkept : ∀ id : ObjectId, id.number ≤ document.lastNumber →
      grown.objects.get? id = document.objects.get? id)
    (hfree : ∀ font, entry.font = .embedded font → grown.objects.get? entry.id = none) :
    Awaits grown (fonts.insert key entry) where
  numbered := hnumbered
  ids := hawaits.ids.insert fun other found _ hget heq => by
    have hrange := hawaits.range other found hget
    rw [heq] at hrange
    omega
  range := SortedMap.forall_get?_insert
    (fun other found hget => Nat.le_trans (hawaits.range other found hget) (by omega)) hid
  free other found font hget hfont := by
    rcases SortedMap.get?_insert_eq_some hget with ⟨-, rfl⟩ | ⟨-, hold⟩
    · exact hfree font hfont
    · rw [hkept found.id (hawaits.range other found hold)]
      exact hawaits.free other found font hold hfont

theorem useFont (hawaits : Awaits press.document press.fonts) (face : Font) :
    Awaits (press.useFont face).2.document (press.useFont face).2.fonts := by
  cases hget : press.fonts.get? face.key with
  | some entry =>
    rw [useFont_of_get? hget]
    exact hawaits
  | none =>
    simp only [Press.useFont, hget]
    cases face with
    | standard standard =>
      exact hawaits.insert (hawaits.numbered.add _) (Nat.lt_succ_self _) (Nat.le_refl _)
        (fun id hid => Document.get?_add_of_le hid _) fun font hfont => by cases hfont
    | embedded embedded =>
      exact hawaits.insert hawaits.numbered.reserve (Nat.lt_succ_self _) (Nat.le_refl _)
        (fun id _ => rfl) fun font _ => hawaits.numbered.get?_of_lt (Nat.lt_succ_self _)

theorem encodeText (hawaits : Awaits press.document press.fonts) (face : Font) (text : String) :
    Awaits (press.encodeText face text).2.document (press.encodeText face text).2.fonts := by
  have hused := hawaits.useFont face
  have hold := press.get?_useFont face
  simp only [Press.encodeText]
  split
  · exact hused
  next embedded hembedded =>
    have hrange := hused.range face.key _ hold
    have hfree := hused.free face.key _ embedded hold hembedded
    refine ⟨hused.numbered, hused.ids.insert fun other found hne hget heq => ?_,
      SortedMap.forall_get?_insert hused.range hrange, fun key entry font hget hfont => ?_⟩
    · exact hne (hused.ids other found hget _ _ hold heq)
    · rcases SortedMap.get?_insert_eq_some hget with ⟨-, rfl⟩ | ⟨-, hother⟩
      · exact hfree
      · exact hused.free key entry font hother hfont

theorem usePicture (hawaits : Awaits press.document press.fonts) (picture : Picture) :
    Awaits (press.usePicture picture).2.document (press.usePicture picture).2.fonts := by
  simp only [Press.usePicture]
  split
  · exact hawaits
  · have hgrows := Document.Grows.refl hawaits.numbered
    exact hawaits.grow (hgrows.addPicture hawaits.numbered picture).1

theorem arrange (hawaits : Awaits press.document press.fonts) (existing : List Object)
    (stamp : ObjectId) : Awaits (press.arrange existing stamp).2.document press.fonts := by
  rw [Press.arrange]
  split
  · exact hawaits
  · split
    · exact hawaits
    · rw [Press.useWrappers]
      cases press.wrappers? with
      | some wrappers => exact hawaits
      | none => exact (hawaits.add _).add _

theorem attach (hawaits : Awaits press.document press.fonts) (page : ObjectId) (stamp : Stamp) :
    Awaits (press.attach page stamp).2.document (press.attach page stamp).2.fonts := by
  rw [fonts_attach]
  have hcontent : Awaits (press.stampContent stamp).2.document press.fonts := hawaits.add _
  have hplaced : Awaits (press.stampedContents page stamp).2.document press.fonts :=
    hcontent.arrange _ _
  rw [attach_eq]
  dsimp only
  split
  next document hchange =>
    obtain ⟨place, entries, hlocate, rfl⟩ := Document.change_eq_ok.1 hchange
    have hpage := (Document.get?_of_locate hlocate).1
    have hstart : (press.stampedContents page stamp).2.document.Overprints (· = place)
        (press.stampedContents page stamp).2.document :=
      .refl fun id hid => ⟨entries, hid ▸ hpage⟩
    exact hplaced.grow {
      numbered := hplaced.numbered.put (hplaced.numbered place _ hpage) _
      overprints := hstart.change hplaced.numbered hlocate rfl (samePage_stampedPage _ _) hchange
      filled := fun number hlt hle => absurd hle (Nat.not_le_of_lt hlt) }
  next => exact hplaced

theorem after {press : Press} (hawaits : Awaits press.document press.fonts) (task : Task) :
    Awaits (press.after task).document (press.after task).fonts := by
  cases task with
  | useFont face => exact hawaits.useFont face
  | encodeText face text => exact hawaits.encodeText face text
  | usePicture picture => exact hawaits.usePicture picture
  | attach page stamp => exact hawaits.attach page stamp

theorem foldl_after (hawaits : Awaits press.document press.fonts) (tasks : List Task) :
    Awaits (tasks.foldl Press.after press).document (tasks.foldl Press.after press).fonts := by
  induction tasks generalizing press with
  | nil => exact hawaits
  | cons task rest ih => exact ih (hawaits.after task)

/-- In the end every embedded font is written for the glyphs that it was used for. -/
theorem written (hawaits : Awaits press.document press.fonts) {key : String} {entry : FontEntry}
    {font : EmbeddedFont} (hget : press.fonts.get? key = some entry)
    (hfont : entry.font = .embedded font) : press.finish.Written entry.id font entry.uses := by
  have hdistinct : press.fonts.values.Pairwise fun left right => left.id ≠ right.id := by
    refine List.pairwise_map.2 ?_
    refine List.Pairwise.imp_of_mem (fun {left right} hleft hright hne heq => ?_)
      (List.pairwise_map.1 press.fonts.nodup_keys)
    exact hne (hawaits.ids left.1 left.2 (SortedMap.get?_of_mem hleft) right.1 right.2
      (SortedMap.get?_of_mem hright) heq)
  obtain ⟨-, hwritten⟩ := Document.foldl_embed_written hawaits.numbered hdistinct
    fun entry hmem => by
      obtain ⟨⟨key, _⟩, hentry, rfl⟩ := List.mem_map.1 hmem
      have hget := SortedMap.get?_of_mem hentry
      exact ⟨hawaits.range key _ hget, fun font => hawaits.free key _ font hget⟩
  rw [finish_eq]
  exact hwritten entry (SortedMap.mem_values_of_get? hget) font hfont

end Awaits

end Press

section Reading

namespace Document

variable (document : Document) (id : ObjectId)

def readFontWidths? : Option (List (Int × Int)) := do
  let .dictionary font ← document.objects.get? id | none
  let .array [.reference descendant] ← Dictionary.get? "DescendantFonts" font | none
  let .dictionary below ← document.objects.get? descendant | none
  let .array widths ← Dictionary.get? "W" below | none
  readWidths? widths

/-- The map from the glyphs of a composite font to characters. -/
def readFontMap? : Option (List MapBlock) := do
  let .dictionary font ← document.objects.get? id | none
  let .reference map ← Dictionary.get? "ToUnicode" font | none
  let .stream _ data ← document.objects.get? map | none
  readMap? data

variable {document id}

theorem Written.readFontWidths? {font : EmbeddedFont} {uses : GlyphUses}
    (hwritten : document.Written id font uses) : document.readFontWidths? id =
      some (uses.entries.map fun entry => ((entry.1 : Int), (entry.2.width : Int))) := by
  obtain ⟨program, descriptor, descendant, map, -, -, hdescendant, -, hfont⟩ := hwritten
  rw [Document.readFontWidths?, hfont]
  simp [compositeFont, descendantFont, Dictionary.get?, hdescendant, readWidths?_widthsOf]

theorem Written.readFontMap? {font : EmbeddedFont} {uses : GlyphUses}
    (hwritten : document.Written id font uses) :
    document.readFontMap? id = readMap? (unicodeMap uses) := by
  obtain ⟨program, descriptor, descendant, map, -, -, -, hmap, hfont⟩ := hwritten
  rw [Document.readFontMap?, hfont]
  simp [compositeFont, Dictionary.get?, hmap]

end Document

def operandGlyphs? : Object → Option (List Nat)
  | .hexText bytes => words? bytes
  | _ => none

def operandText? (blocks : List MapBlock) (operand : Object) : Option String := do
  let glyphs ← operandGlyphs? operand
  let texts ← glyphs.mapM fun glyph => (blocks.flatMap (·.entries)).lookup glyph
  return String.ofList (texts.flatMap String.toList)

private theorem mapM_map_eq_some {α β γ : Type} {items : List α} {first : α → β}
    {second : β → Option γ} {both : α → γ}
    (hitems : ∀ item ∈ items, second (first item) = some (both item)) :
    (items.map first).mapM second = some (items.map both) := by
  induction items with
  | nil => rfl
  | cons item rest ih =>
    rw [List.map_cons, List.mapM_cons, hitems item List.mem_cons_self,
      ih fun other hmem => hitems other (List.mem_cons_of_mem item hmem)]
    rfl

private theorem lookup_eq_some {α : Type} {entries : List (Nat × α)} {key : Nat} {value : α}
    (hdistinct : (entries.map (·.1)).Nodup) (hmem : (key, value) ∈ entries) :
    entries.lookup key = some value := by
  induction entries with
  | nil => cases hmem
  | cons entry rest ih =>
    obtain ⟨hfirst, hrest⟩ := List.nodup_cons.1 hdistinct
    rcases List.mem_cons.1 hmem with rfl | hmem
    · exact List.lookup_cons_self
    · have hne : (key == entry.1) = false := by
        exact beq_eq_false_iff_ne.2 fun heq => hfirst (List.mem_map.2 ⟨_, hmem, heq⟩)
      rw [List.lookup_cons, hne]
      exact ih hrest hmem

end Reading

section Texts

variable (font : EmbeddedFont) (texts : List String)

/-- The glyphs on record are those of the characters, each with the first of them. -/
theorem mem_usesOf_iff_find? {glyph : Nat} {use : GlyphUse} :
    (glyph, use) ∈ (usesOf font texts).entries ↔ ∃ c,
      (texts.flatMap String.toList).find? (font.glyph · = glyph) = some c ∧
        use = ⟨c, font.width glyph⟩ := by
  rw [mem_usesOf_iff, firstUse, Option.map_eq_some_iff]
  simp only [eq_comm]

theorem usesOf_lt : ∀ entry ∈ (usesOf font texts).entries, entry.1 < 0x10000 := by
  rintro ⟨glyph, use⟩ hmem
  obtain ⟨c, hfind, -⟩ := (mem_usesOf_iff_find? font texts).1 hmem
  have hglyph : font.glyph c = glyph := by simpa using List.find?_some hfind
  exact hglyph ▸ font.glyph_lt c

theorem mem_glyphs_iff {characters : List Char} {glyph : Nat} :
    glyph ∈ characters.map font.glyph ↔ ∃ c, characters.find? (font.glyph · = glyph) = some c := by
  rw [← Option.isSome_iff_exists, List.find?_isSome, List.mem_map]
  simp

theorem mem_widths_iff {glyph width : Int} :
    (glyph, width) ∈ (usesOf font texts).entries.map
        (fun entry => ((entry.1 : Int), (entry.2.width : Int))) ↔
      ∃ used ∈ (texts.flatMap String.toList).map font.glyph, glyph = (used : Int) ∧
        width = (font.width used : Int) := by
  simp only [mem_glyphs_iff]
  constructor
  · intro hmem
    obtain ⟨⟨used, use⟩, hentry, heq⟩ := List.mem_map.1 hmem
    cases heq
    obtain ⟨c, hfind, rfl⟩ := (mem_usesOf_iff_find? font texts).1 hentry
    exact ⟨used, ⟨c, hfind⟩, rfl, rfl⟩
  · rintro ⟨used, ⟨c, hfind⟩, rfl, rfl⟩
    exact List.mem_map.2 ⟨(used, _), (mem_usesOf_iff_find? font texts).2 ⟨c, hfind, rfl⟩, rfl⟩

theorem mem_characterEntries_iff {glyph : Nat} {text : String} :
    (glyph, text) ∈ ((usesOf font texts).entries.filter (·.1 ≠ 0)).map characterEntry ↔
      glyph ∈ (texts.flatMap String.toList).map font.glyph ∧ glyph ≠ 0 ∧
        ((texts.flatMap String.toList).find? (font.glyph · = glyph)).map String.singleton =
          some text := by
  rw [mem_glyphs_iff]
  constructor
  · intro hmem
    obtain ⟨⟨used, use⟩, hentry, heq⟩ := List.mem_map.1 hmem
    cases heq
    obtain ⟨hentry, hne⟩ := List.mem_filter.1 hentry
    obtain ⟨c, hfind, rfl⟩ := (mem_usesOf_iff_find? font texts).1 hentry
    refine ⟨⟨c, hfind⟩, by simpa using hne, ?_⟩
    rw [hfind]
    rfl
  · rintro ⟨⟨c, hfind⟩, hne, htext⟩
    rw [hfind] at htext
    cases htext
    have hmem := (mem_usesOf_iff_find? font texts).2 ⟨c, hfind, rfl⟩
    exact List.mem_map.2 ⟨_, List.mem_filter.2 ⟨hmem, by simpa using hne⟩, rfl⟩

theorem nodup_characterEntries :
    ((((usesOf font texts).entries.filter (·.1 ≠ 0)).map characterEntry).map (·.1)).Nodup := by
  rw [List.map_map]
  exact (usesOf font texts).nodup_keys.sublist (List.filter_sublist.map _)

/-- The map of the glyphs of some texts leads from every glyph to its character, if no other one has
it. -/
theorem lookup_characterEntries
    (hglyphs : ∀ c ∈ texts.flatMap String.toList, font.glyph c ≠ 0 ∧
      ∀ d ∈ texts.flatMap String.toList, font.glyph d = font.glyph c → d = c)
    {c : Char} (hmem : c ∈ texts.flatMap String.toList) :
    (((usesOf font texts).entries.filter (·.1 ≠ 0)).map characterEntry).lookup (font.glyph c) =
      some (String.singleton c) := by
  have hglyph : font.glyph c ∈ (texts.flatMap String.toList).map font.glyph :=
    List.mem_map_of_mem hmem
  obtain ⟨d, hfind⟩ := (mem_glyphs_iff font).1 hglyph
  have hsame : d = c :=
    (hglyphs c hmem).2 d (List.mem_of_find?_eq_some hfind) (by simpa using List.find?_some hfind)
  refine lookup_eq_some (nodup_characterEntries font texts)
    ((mem_characterEntries_iff font texts).2 ⟨hglyph, (hglyphs c hmem).1, ?_⟩)
  rw [hfind, hsame]
  rfl

theorem operandText?_encode {blocks : List MapBlock}
    (hblocks : blocks.flatMap (·.entries) =
      ((usesOf font texts).entries.filter (·.1 ≠ 0)).map characterEntry)
    (hglyphs : ∀ c ∈ texts.flatMap String.toList, font.glyph c ≠ 0 ∧
      ∀ d ∈ texts.flatMap String.toList, font.glyph d = font.glyph c → d = c)
    {text : String} (hmem : text ∈ texts) :
    operandText? blocks (.hexText (font.encode text)) = some text := by
  have hread : operandGlyphs? (.hexText (font.encode text)) = some (text.toList.map font.glyph) :=
    words?_encode font text
  have hlookup : (text.toList.map font.glyph).mapM (fun glyph =>
      (blocks.flatMap (·.entries)).lookup glyph) = some (text.toList.map String.singleton) :=
    mapM_map_eq_some fun c hc => by
      rw [hblocks]
      exact lookup_characterEntries font texts hglyphs (List.mem_flatMap.2 ⟨text, hmem, hc⟩)
  rw [operandText?, hread, Option.bind_eq_bind, Option.bind_some, hlookup]
  simp [List.flatMap_map]

end Texts

/-- Widths and a map with which texts in a font are read back from their operands, given the glyphs in
these. -/
structure Recovers (font : EmbeddedFont) (texts : List String) (operands : List Object)
    (glyphs : List Nat) (widths : List (Int × Int)) (blocks : List MapBlock) : Prop where
  nodup_widths : (widths.map (·.1)).Nodup
  mem_widths : ∀ glyph width, (glyph, width) ∈ widths ↔ ∃ used ∈ glyphs, glyph = (used : Int) ∧
    width = ((font.face.advance used * 1000 / max font.face.grid.unitsPerEm 1 : Nat) : Int)
  nodup_map : ((blocks.flatMap (·.entries)).map (·.1)).Nodup
  /-- Every glyph but zero has the first character that it showed. -/
  mem_map : ∀ glyph text, (glyph, text) ∈ blocks.flatMap (·.entries) ↔ glyph ∈ glyphs ∧ glyph ≠ 0 ∧
    ((texts.flatMap String.toList).find? (font.glyph · = glyph)).map String.singleton = some text
  counts : ∀ block ∈ blocks, block.count = block.entries.length ∧ block.count ≤ 100
  texts : (∀ c ∈ texts.flatMap String.toList, font.glyph c ≠ 0 ∧
      ∀ d ∈ texts.flatMap String.toList, font.glyph d = font.glyph c → d = c) →
    operands.mapM (operandText? blocks) = some texts

/-- When a press has been used for some tasks and is finished, its entry for a font leads to widths and
a map with which the texts in that font can be read back. -/
def Press.ReadsBack (start : Press) (tasks : List Task) (font : EmbeddedFont) : Prop :=
  let press := tasks.foldl Press.after start
  let operands := start.operands (Font.embedded font).key tasks
  ∃ entry glyphs widths blocks,
    press.fonts.get? (Font.embedded font).key = some entry ∧
    operands.mapM operandGlyphs? = some glyphs ∧
    press.finish.readFontWidths? entry.id = some widths ∧
    press.finish.readFontMap? entry.id = some blocks ∧
    Recovers font (tasks.filterMap (Task.text? (Font.embedded font).key)) operands glyphs.flatten
      widths blocks

end Overprint.Pdf
