import Overprint.Pdf.Fonts
import Overprint.Pdf.Lexeme

/-!
# Reading the map of an embedded font

What a reader finds in the map that leads from the glyphs of a font to characters: blocks of rows,
each row with a glyph and the sixteen-bit units of a text, both in hexadecimal digits. From a map that
was written it reads the glyphs with their characters, in blocks that are as long as they say and not
too long.
-/

namespace Overprint.Pdf

open Number

namespace Lexeme

def hexDigits : List UInt8 :=
  [48, 49, 50, 51, 52, 53, 54, 55, 56, 57, 65, 66, 67, 68, 69, 70]

theorem isRegular_of_mem_hexDigits : ∀ digit ∈ hexDigits, isRegular digit = true := by
  decide +kernel

theorem exists_hexByte (byte : UInt8) : ∃ high low, hexByte byte = [high, low] ∧
    hexPair? high low = some byte ∧ high ∈ hexDigits ∧ low ∈ hexDigits := by
  let first (byte : UInt8) := (hexByte byte).getD 0 0
  let second (byte : UInt8) := (hexByte byte).getD 1 0
  have hall : ∀ value < 256, hexByte (.ofNat value) = [first (.ofNat value), second (.ofNat value)] ∧
      hexPair? (first (.ofNat value)) (second (.ofNat value)) = some (.ofNat value) ∧
        first (.ofNat value) ∈ hexDigits ∧ second (.ofNat value) ∈ hexDigits := by
    decide +kernel
  have hbyte := hall byte.toNat byte.toNat_lt
  rw [UInt8.ofNat_toNat] at hbyte
  exact ⟨first byte, second byte, hbyte⟩

theorem isRegular_of_mem_hexBytes {bytes : List UInt8} {digit : UInt8}
    (hmem : digit ∈ bytes.flatMap hexByte) : isRegular digit = true := by
  obtain ⟨byte, -, hmem⟩ := List.mem_flatMap.1 hmem
  obtain ⟨high, low, hdigits, -, hhigh, hlow⟩ := exists_hexByte byte
  rw [hdigits] at hmem
  refine isRegular_of_mem_hexDigits digit ?_
  rcases List.mem_cons.1 hmem with rfl | hmem
  · exact hhigh
  · rw [List.mem_singleton.1 hmem]
    exact hlow

theorem hexBytes?_flatMap (bytes : List UInt8) :
    hexBytes? (bytes.flatMap hexByte) = some bytes := by
  induction bytes with
  | nil => rfl
  | cons byte rest ih =>
    obtain ⟨high, low, hdigits, hpair, -, -⟩ := exists_hexByte byte
    rw [List.flatMap_cons, hdigits, List.cons_append, List.cons_append, List.nil_append, hexBytes?,
      hpair, ih]
    rfl

theorem read?_hexText (bytes rest : List UInt8) :
    read? (60 :: (bytes.flatMap hexByte ++ 62 :: rest)) = some (.hexText bytes, rest) := by
  have hregular := @isRegular_of_mem_hexBytes bytes
  have hne : ∀ digit ∈ bytes.flatMap hexByte, digit ≠ 62 := by
    rintro digit hmem rfl
    exact absurd (hregular hmem) (by decide)
  have hblank : (bytes.flatMap hexByte).filter (!isBlank ·) = bytes.flatMap hexByte := by
    refine List.filter_eq_self.2 fun digit hmem => ?_
    have := hregular hmem
    rw [isRegular, Bool.and_eq_true] at this
    exact this.1
  have hopen : ∀ inside, bytes.flatMap hexByte ++ 62 :: rest ≠ 60 :: inside := by
    intro inside heq
    cases hdigits : bytes.flatMap hexByte with
    | nil =>
      rw [hdigits] at heq
      cases heq
    | cons digit digits =>
      rw [hdigits] at heq
      cases heq
      exact absurd (hregular (hdigits ▸ List.mem_cons_self)) (by decide)
  have htake : (bytes.flatMap hexByte ++ 62 :: rest).takeWhile (· ≠ 62) = bytes.flatMap hexByte := by
    rw [List.takeWhile_append_of_pos (by simpa using hne)]
    simp
  have hdrop : (bytes.flatMap hexByte ++ 62 :: rest).dropWhile (· ≠ 62) = 62 :: rest := by
    rw [List.dropWhile_append_of_pos (by simpa using hne)]
    simp
  have hstart : afterBlanks (60 :: (bytes.flatMap hexByte ++ 62 :: rest)) false =
      60 :: (bytes.flatMap hexByte ++ 62 :: rest) := by
    simp [afterBlanks, isBlank]
  rw [read?, hstart]
  split
  case h_4 heq => exact (hopen _ (List.cons.inj heq).2).elim
  case h_6 heq =>
    cases heq
    dsimp only
    rw [htake, hdrop, hblank, hexBytes?_flatMap]
    rfl
  case h_9 _ hnot _ _ => exact (hnot _ rfl).elim
  all_goals
    rename_i heq
    cases heq

/-- Regular bytes are a word, up to the first byte that is none. -/
theorem read?_word {regular rest : List UInt8} (hne : regular ≠ [])
    (hregular : ∀ byte ∈ regular, isRegular byte = true)
    (hrest : ∀ byte ∈ rest.head?, isRegular byte = false) :
    read? (regular ++ rest) = some (.word (Bytes.characters regular), rest) := by
  obtain ⟨first, others, rfl⟩ := List.exists_cons_of_ne_nil hne
  have hfirst := hregular first List.mem_cons_self
  have htake : ((first :: others) ++ rest).takeWhile isRegular = first :: others := by
    rw [List.takeWhile_append_of_pos hregular]
    cases rest <;> simp_all
  have hdrop : ((first :: others) ++ rest).dropWhile isRegular = rest := by
    rw [List.dropWhile_append_of_pos hregular]
    cases rest <;> simp_all
  have hstart : afterBlanks (first :: others ++ rest) false = first :: others ++ rest := by
    have hblank : isBlank first = false ∧ first ≠ 37 := by
      constructor
      · rw [isRegular, Bool.and_eq_true, Bool.not_eq_true'] at hfirst
        exact hfirst.1
      · rintro rfl
        exact absurd hfirst (by decide)
    simp [afterBlanks, hblank]
  rw [read?, hstart]
  split
  case h_1 heq => cases heq
  case h_9 => rw [htake, hdrop]
  all_goals
    rename_i heq
    rw [List.cons_append, List.cons.injEq] at heq
    rw [heq.1] at hfirst
    exact absurd hfirst (by decide)

end Lexeme

/-- The sixteen-bit numbers that bytes spell, the high byte of each first. -/
def words? : List UInt8 → Option (List Nat)
  | [] => some []
  | [_] => none
  | high :: low :: rest => (words? rest).map ((high.toNat * 256 + low.toNat) :: ·)

theorem words?_flatMap {values : List Nat} (hvalues : ∀ value ∈ values, value < 0x10000) :
    words? (values.flatMap Bytes.ofWord16) = some values := by
  induction values with
  | nil => rfl
  | cons value rest ih =>
    have hvalue := hvalues value List.mem_cons_self
    have hbytes : (UInt8.ofNat (value / 0x100)).toNat * 256 + (UInt8.ofNat value).toNat = value := by
      simp only [UInt8.toNat_ofNat']
      omega
    rw [List.flatMap_cons, Bytes.ofWord16, List.cons_append, List.cons_append, List.nil_append,
      words?, ih fun other hmem => hvalues other (List.mem_cons_of_mem value hmem), hbytes]
    rfl

def character? (point : Nat) : Option Char :=
  if h : point.isValidChar then some (Char.ofNatAux point h) else none

theorem character?_toNat (c : Char) : character? c.toNat = some c := by
  have hvalid : c.toNat.isValidChar := c.valid
  rw [character?, dif_pos hvalid]
  rfl

/-- The characters that sixteen-bit units spell. A character beyond the first plane takes two. -/
def ofUnits? : List Nat → Option (List Char)
  | [] => some []
  | unit :: rest =>
    if 0xd800 ≤ unit ∧ unit < 0xdc00 then
      match rest with
      | low :: rest => do
        if low < 0xdc00 ∨ 0xe000 ≤ low then none
        let c ← character? (0x10000 + (unit - 0xd800) * 0x400 + (low - 0xdc00))
        return c :: (← ofUnits? rest)
      | [] => none
    else do
      let c ← character? unit
      return c :: (← ofUnits? rest)

/-- A character is in the first plane, and no surrogate, or in one of the others. -/
theorem toNat_cases (c : Char) : c.toNat < 0xd800 ∨ (0xe000 ≤ c.toNat ∧ c.toNat < 0x10000) ∨
    (0x10000 ≤ c.toNat ∧ c.toNat < 0x110000) := by
  have hvalid : c.toNat < 0xd800 ∨ 0xdfff < c.toNat ∧ c.toNat < 0x110000 := c.valid
  omega

theorem units_lt (c : Char) : ∀ unit ∈ units c, unit < 0x10000 := by
  intro unit hmem
  have hcases := toNat_cases c
  simp only [units] at hmem
  split at hmem
  · rw [List.mem_singleton.1 hmem]
    assumption
  · simp only [List.mem_cons, List.not_mem_nil, or_false] at hmem
    omega

theorem ofUnits?_units (c : Char) : ofUnits? (units c) = some [c] := by
  simp only [units]
  split
  next hplane =>
    have hcases := toNat_cases c
    rw [ofUnits?, if_neg (by omega), character?_toNat]
    rfl
  next hplane =>
    have hcases := toNat_cases c
    have hpoint : 0x10000 + (0xd800 + (c.toNat - 0x10000) / 0x400 - 0xd800) * 0x400 +
        (0xdc00 + (c.toNat - 0x10000) % 0x400 - 0xdc00) = c.toNat := by
      omega
    rw [ofUnits?, if_pos (by omega)]
    dsimp only
    rw [if_neg (by omega), hpoint, character?_toNat]
    rfl

/-- A block of a map: how many rows it announces, and the rows that it has. -/
structure MapBlock where
  count : Nat
  entries : List (Nat × String) := []
deriving DecidableEq

/-- How many rows are announced by a row that begins a block. -/
def blockCount? (row : List UInt8) : Option Nat :=
  match Lexeme.read? row with
  | some (.word digits, rest) =>
    if digits.all Char.isDigit ∧
        Lexeme.read? rest = some (.word "beginbfchar".toList, []) then
      some (Nat.ofDigitChars 10 digits 0)
    else none
  | _ => none

/-- The glyph in a row of a block, and the text it stands for. -/
def readRow? (row : List UInt8) : Option (Nat × String) :=
  match Lexeme.read? row with
  | some (.hexText glyph, rest) =>
    match words? glyph, Lexeme.read? rest with
    | some [glyph], some (.hexText text, []) => do
      let text ← ofUnits? (← words? text)
      return (glyph, String.ofList text)
    | _, _ => none
  | _ => none

/-- The blocks that rows hold, if they are after a part of one or after none. Rows outside blocks say
nothing about characters. -/
def readRows? : Option MapBlock → List (List UInt8) → Option (List MapBlock)
  | none, [] => some []
  | some _, [] => none
  | none, row :: rest => readRows? ((blockCount? row).map fun count => { count }) rest
  | some block, row :: rest =>
    if row = ascii "endbfchar" then (readRows? none rest).map (block :: ·)
    else do
      let entry ← readRow? row
      readRows? (some { block with entries := block.entries ++ [entry] }) rest

def readMap? (map : List UInt8) : Option (List MapBlock) :=
  readRows? none (map.splitOn 10)

def mapRow (glyph : Nat) (use : GlyphUse) : List UInt8 :=
  60 :: ((Bytes.ofWord16 glyph).flatMap hexByte ++
    62 :: 32 :: 60 :: (((units use.character).flatMap Bytes.ofWord16).flatMap hexByte ++ [62]))

theorem mapLine_eq (glyph : Nat) (use : GlyphUse) : mapLine glyph use = mapRow glyph use ++ [10] := by
  have hmarks : ascii "<" = [60] ∧ ascii "> <" = [62, 32, 60] ∧ ascii ">\n" = [62, 10] := by decide
  have hunits : (units use.character).flatMap hexWord =
      ((units use.character).flatMap Bytes.ofWord16).flatMap hexByte := by
    rw [List.flatMap_assoc]
    rfl
  simp only [mapLine, mapRow, hmarks, hunits, hexWord, List.append_assoc, List.cons_append,
    List.nil_append]

theorem readRow?_mapRow {glyph : Nat} (hglyph : glyph < 0x10000) (use : GlyphUse) :
    readRow? (mapRow glyph use) = some (glyph, String.singleton use.character) := by
  have hword : words? (Bytes.ofWord16 glyph) = some [glyph] := by
    have hread : words? ([glyph].flatMap Bytes.ofWord16) = some [glyph] :=
      words?_flatMap (by simpa using hglyph)
    simpa using hread
  have hblank (inside : List UInt8) :
      Lexeme.read? (32 :: 60 :: inside) = Lexeme.read? (60 :: inside) := by
    simp only [Lexeme.read?, Lexeme.afterBlanks, Lexeme.isBlank]
    rfl
  rw [readRow?, mapRow, Lexeme.read?_hexText]
  dsimp only
  rw [hword, hblank, Lexeme.read?_hexText]
  dsimp only
  rw [words?_flatMap (units_lt use.character)]
  simp only [Option.bind_eq_bind, Option.bind_some, ofUnits?_units]
  rfl

section Rows

/-- A glyph with the character that it is the glyph of. -/
def characterEntry (entry : Nat × GlyphUse) : Nat × String :=
  (entry.1, String.singleton entry.2.character)

theorem readRows?_block {entries : List (Nat × GlyphUse)}
    (hglyphs : ∀ entry ∈ entries, entry.1 < 0x10000) (block : MapBlock)
    (rest : List (List UInt8)) :
    readRows? (some block)
        (entries.map (fun entry => mapRow entry.1 entry.2) ++ ascii "endbfchar" :: rest) =
      (readRows? none rest).map
        ({ block with entries := block.entries ++ entries.map characterEntry } :: ·) := by
  induction entries generalizing block with
  | nil =>
    rw [List.map_nil, List.nil_append, readRows?, if_pos rfl, List.map_nil, List.append_nil]
  | cons entry others ih =>
    have hrow : mapRow entry.1 entry.2 ≠ ascii "endbfchar" := by
      intro heq
      have hfirst : some 60 = (ascii "endbfchar").head? := congrArg List.head? heq
      exact absurd hfirst (by decide)
    have hentry := readRow?_mapRow (hglyphs entry List.mem_cons_self) entry.2
    rw [List.map_cons, List.cons_append, readRows?, if_neg hrow, hentry]
    simp only [Option.bind_eq_bind, Option.bind_some]
    rw [ih fun other hmem => hglyphs other (List.mem_cons_of_mem entry hmem)]
    rw [List.map_cons, List.append_assoc]
    rfl

theorem ascii_append (first second : String) :
    ascii (first ++ second) = ascii first ++ ascii second := by
  rw [ascii, String.toList_append, List.map_append]
  rfl

theorem ascii_toString (number : Nat) :
    (∀ byte ∈ ascii (toString number), Lexeme.isRegular byte = true) ∧
    Bytes.characters (ascii (toString number)) = Nat.toDigits 10 number := by
  have hdigits : (toString number).toList = Nat.toDigits 10 number := by
    rw [Nat.toString_eq_ofList_toDigits, String.toList_ofList]
  have hdigit (c : Char) (hmem : c ∈ Nat.toDigits 10 number) :
      Lexeme.isRegular (.ofNat c.toNat) = true ∧ Char.ofNat (UInt8.ofNat c.toNat).toNat = c := by
    have hrange : 48 ≤ c.toNat ∧ c.toNat < 58 := by
      have hisDigit := Nat.isDigit_of_mem_toDigits (by decide) (by decide) hmem
      simp only [Char.isDigit, Bool.and_eq_true, decide_eq_true_eq, ge_iff_le,
        UInt32.le_iff_toNat_le] at hisDigit
      exact ⟨hisDigit.1, Nat.lt_succ_of_le hisDigit.2⟩
    have hregular : ∀ value < 58, 48 ≤ value → Lexeme.isRegular (.ofNat value) = true := by
      decide +kernel
    refine ⟨hregular c.toNat hrange.2 hrange.1, ?_⟩
    rw [UInt8.toNat_ofNat', Nat.mod_eq_of_lt (by omega), Char.ofNat_toNat]
  rw [ascii, hdigits]
  constructor
  · intro byte hmem
    obtain ⟨c, hc, rfl⟩ := List.mem_map.1 hmem
    exact (hdigit c hc).1
  · rw [Bytes.characters, List.map_map]
    exact List.map_congr_left (g := id) (fun c hc => (hdigit c hc).2) |>.trans (List.map_id _)

def blockOpening (count : Nat) : List UInt8 :=
  ascii (toString count) ++ ascii " beginbfchar"

theorem blockCount?_blockOpening (count : Nat) : blockCount? (blockOpening count) = some count := by
  obtain ⟨hregular, hcharacters⟩ := ascii_toString count
  have hne : ascii (toString count) ≠ [] := by
    intro hnil
    rw [hnil] at hcharacters
    exact Nat.toDigits_ne_nil hcharacters.symm
  have hrest : Lexeme.read? (ascii " beginbfchar") = some (.word "beginbfchar".toList, []) := by
    decide +kernel
  have hall : (Nat.toDigits 10 count).all Char.isDigit = true :=
    List.all_eq_true.2 fun c hmem => Nat.isDigit_of_mem_toDigits (by decide) (by decide) hmem
  have hblank : (ascii " beginbfchar").head? = some 32 := by decide
  have hend : ∀ byte ∈ (ascii " beginbfchar").head?, Lexeme.isRegular byte = false := by
    intro byte hmem
    rw [hblank, Option.mem_some_iff] at hmem
    rw [← hmem]
    rfl
  rw [blockCount?, blockOpening, Lexeme.read?_word hne hregular hend]
  dsimp only
  rw [hcharacters, if_pos ⟨hall, hrest⟩, Nat.ofDigitChars_ten_toDigits]

/-- Rows of a map are divided at their ends. -/
theorem splitOn_rows {rows : List (List UInt8)} (hrows : ∀ row ∈ rows, 10 ∉ row)
    (rest : List UInt8) :
    (rows.flatMap (· ++ [10]) ++ rest).splitOn 10 = rows ++ rest.splitOn 10 := by
  induction rows with
  | nil => rfl
  | cons row others ih =>
    rw [List.flatMap_cons, List.append_assoc, List.append_assoc, List.singleton_append,
      List.splitOn_append_cons_self_of_not_mem (hrows row List.mem_cons_self),
      ih fun other hmem => hrows other (List.mem_cons_of_mem row hmem), List.cons_append]

theorem not_mem_of_isRegular {bytes : List UInt8}
    (hregular : ∀ byte ∈ bytes, Lexeme.isRegular byte = true) : 10 ∉ bytes :=
  fun hmem => absurd (hregular 10 hmem) (by decide)

theorem not_mem_mapRow (glyph : Nat) (use : GlyphUse) : 10 ∉ mapRow glyph use := by
  have hdigits (bytes : List UInt8) : 10 ∉ bytes.flatMap hexByte :=
    not_mem_of_isRegular fun _ => Lexeme.isRegular_of_mem_hexBytes
  simp only [mapRow, List.mem_cons, List.mem_append, hdigits]
  decide

theorem not_mem_blockOpening (count : Nat) : 10 ∉ blockOpening count := by
  intro hmem
  rcases List.mem_append.1 hmem with hmem | hmem
  · exact not_mem_of_isRegular (ascii_toString count).1 hmem
  · exact absurd hmem (by decide)

theorem mapBlocks_eq {lines : List (List UInt8)} (hne : lines ≠ []) :
    mapBlocks lines = blockOpening (lines.take blockSize).length ++ [10] ++
      (lines.take blockSize).flatten ++ (ascii "endbfchar" ++ [10]) ++
      mapBlocks (lines.drop blockSize) := by
  have hending : ascii "endbfchar\n" = ascii "endbfchar" ++ [10] := by decide
  have hopening : ascii s!"{(lines.take blockSize).length} beginbfchar\n" =
      blockOpening (lines.take blockSize).length ++ [10] := by
    have hwords : ascii " beginbfchar\n" = ascii " beginbfchar" ++ [10] := by decide
    rw [blockOpening, List.append_assoc, ← hwords, ← ascii_append]
    rfl
  rw [mapBlocks, if_neg hne, hending]
  dsimp only
  rw [hopening]

/-- The blocks of the lines of some glyphs have those glyphs, and no block is too long. -/
theorem readRows?_mapBlocks {entries : List (Nat × GlyphUse)}
    (hglyphs : ∀ entry ∈ entries, entry.1 < 0x10000) (rest : List UInt8) : ∃ blocks,
      readRows? none
          ((mapBlocks (entries.map fun entry => mapLine entry.1 entry.2) ++ rest).splitOn 10) =
        (readRows? none (rest.splitOn 10)).map (blocks ++ ·) ∧
      blocks.flatMap (·.entries) = entries.map characterEntry ∧
      ∀ block ∈ blocks, block.count = block.entries.length ∧ block.count ≤ blockSize := by
  by_cases hne : entries = []
  · subst hne
    refine ⟨[], ?_, rfl, fun _ hmem => absurd hmem List.not_mem_nil⟩
    simp [mapBlocks]
  · let chunk := entries.take blockSize
    have hchunk : ∀ entry ∈ chunk, entry.1 < 0x10000 :=
      fun entry hmem => hglyphs entry (List.mem_of_mem_take hmem)
    obtain ⟨blocks, hread, hentries, hblocks⟩ :=
      @readRows?_mapBlocks (entries.drop blockSize)
        (fun entry hmem => hglyphs entry (List.mem_of_mem_drop hmem)) rest
    let rows := blockOpening chunk.length ::
      (chunk.map (fun entry => mapRow entry.1 entry.2) ++ [ascii "endbfchar"])
    have hrows : ∀ row ∈ rows, 10 ∉ row := by
      intro row hmem
      rcases List.mem_cons.1 hmem with rfl | hmem
      · exact not_mem_blockOpening _
      rcases List.mem_append.1 hmem with hmem | hmem
      · obtain ⟨entry, -, rfl⟩ := List.mem_map.1 hmem
        exact not_mem_mapRow entry.1 entry.2
      · rw [List.mem_singleton.1 hmem]
        decide
    have hbytes : mapBlocks (entries.map fun entry => mapLine entry.1 entry.2) =
        rows.flatMap (· ++ [10]) ++
          mapBlocks ((entries.drop blockSize).map fun entry => mapLine entry.1 entry.2) := by
      rw [mapBlocks_eq (by simpa using hne), ← List.map_take, ← List.map_drop, List.length_map]
      simp [rows, chunk, mapLine_eq, List.flatMap_def, Function.comp_def]
    let block : MapBlock := { count := chunk.length, entries := chunk.map characterEntry }
    refine ⟨block :: blocks, ?_, ?_, ?_⟩
    · rw [hbytes, List.append_assoc, splitOn_rows hrows, List.cons_append, readRows?,
        blockCount?_blockOpening, Option.map_some, List.append_assoc, List.singleton_append,
        readRows?_block hchunk, hread, Option.map_map]
      rfl
    · rw [List.flatMap_cons, hentries, ← List.map_append, List.take_append_drop]
    · intro other hmem
      rcases List.mem_cons.1 hmem with rfl | hmem
      · refine ⟨(List.length_map _).symm, ?_⟩
        exact Nat.le_trans (List.length_take_le _ _) (Nat.le_refl _)
      · exact hblocks other hmem
termination_by entries.length
decreasing_by
  have := List.length_pos_iff.2 hne
  simp only [blockSize, List.length_drop]
  omega

/-- A text that has no block in it. -/
def Ignored (text : String) : Prop :=
  ∀ rest : List UInt8,
    readRows? none ((ascii text ++ rest).splitOn 10) = readRows? none (rest.splitOn 10)

theorem Ignored.append {first second : String} (hfirst : Ignored first) (hsecond : Ignored second) :
    Ignored (first ++ second) := by
  intro rest
  rw [ascii_append, List.append_assoc, hfirst, hsecond]

/-- A line is ignored unless it begins a block. -/
theorem ignored_line {line : String} (hend : (ascii line).getLast? = some 10)
    (hrow : blockCount? (ascii line).dropLast = none ∧ 10 ∉ (ascii line).dropLast) :
    Ignored line := by
  intro rest
  obtain ⟨row, hline⟩ := List.getLast?_eq_some_iff.1 hend
  rw [hline, List.dropLast_concat] at hrow
  rw [hline, List.append_assoc, List.singleton_append,
    List.splitOn_append_cons_self_of_not_mem hrow.2, readRows?, hrow.1, Option.map_none]

theorem ignored_mapOpening : Ignored mapOpening := by
  unfold mapOpening
  refine .append (.append (.append (.append (.append (.append (.append (.append ?_ ?_) ?_) ?_) ?_) ?_)
    ?_) ?_) ?_
  all_goals exact ignored_line (by decide +kernel) (by decide +kernel)

theorem readRows?_mapClosing : readRows? none ((ascii mapClosing).splitOn 10) = some [] := by
  decide +kernel

/-- Reading the map of the glyphs that were used gives those glyphs but zero, each with its character,
in blocks that are as long as they say and not too long. -/
theorem readMap?_unicodeMap {uses : GlyphUses}
    (hglyphs : ∀ entry ∈ uses.entries, entry.1 < 0x10000) : ∃ blocks,
      readMap? (unicodeMap uses) = some blocks ∧
      blocks.flatMap (·.entries) = (uses.entries.filter (·.1 ≠ 0)).map characterEntry ∧
      ∀ block ∈ blocks, block.count = block.entries.length ∧ block.count ≤ blockSize := by
  let entries := uses.entries.filter (·.1 ≠ 0)
  have hentries : ∀ entry ∈ entries, entry.1 < 0x10000 :=
    fun entry hmem => hglyphs entry (List.mem_filter.1 hmem).1
  obtain ⟨blocks, hread, hfound, hblocks⟩ := readRows?_mapBlocks hentries (ascii mapClosing)
  refine ⟨blocks, ?_, hfound, hblocks⟩
  rw [readMap?, unicodeMap, List.append_assoc, ignored_mapOpening]
  refine hread.trans ?_
  rw [readRows?_mapClosing, Option.map_some, List.append_nil]

end Rows

end Overprint.Pdf
