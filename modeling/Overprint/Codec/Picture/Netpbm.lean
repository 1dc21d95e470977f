import Overprint.Bytes
import Overprint.Number.Binary
import Overprint.Number.Numeral
import Overprint.Picture.Raster
import Overprint.Text.Blank
import Overprint.Text.Utf8

/-!
# Portable pixel maps

The seven formats that start with `P` and a digit: bits, grey levels and colours, in digits or in
bytes, and rasters of any layout under a header of lines. Samples below the greatest one are scaled
to the full range. What comes after the raster is ignored.
-/

namespace Overprint.Netpbm

open Number

/-- What separates words: the ASCII blanks. -/
def isSeparator (byte : UInt8) : Bool :=
  (9 ≤ byte && byte ≤ 13) || byte == 32

/-- The next word of a header and what follows the separator after it. A comment goes from `#` to
the end of the line and may stand inside a word. -/
def headerWord? : List UInt8 → (comment : Bool) → (word : List UInt8) →
    Option (List UInt8 × List UInt8)
  | [], _, word => if word = [] then none else some (word.reverse, [])
  | byte :: rest, true, word => headerWord? rest (byte ≠ 10 && byte ≠ 13) word
  | byte :: rest, false, word =>
    if byte = 35 then headerWord? rest true word
    else if isSeparator byte then
      if word = [] then headerWord? rest false word else some (word.reverse, rest)
    else if 128 ≤ byte then none
    else headerWord? rest false (byte :: word)

def number? (bound : Nat) (cs : List Char) : Option Nat := do
  let value ← Numeral.natural? cs
  if value < bound then some value else none

def headerBound : Nat := 0x100000000

def headerNumber? (bytes : List UInt8) : Option (Nat × List UInt8) := do
  let (word, rest) ← headerWord? bytes false []
  return (← number? headerBound (Bytes.characters word), rest)

/-- A sample scaled from a range to another, in the shorter format. -/
def scale (greatest target sample : Nat) : Nat :=
  if greatest = target then sample
  else
    let factor : Single := Binary.ofNat target / Binary.ofNat greatest
    let scaled := Binary.ofNat sample * factor
    match scaled with
    | .nan => 0
    | .infinite _ => target
    | .finite _ units _ =>
      let unit := Format.single.one
      min target ((2 * units + unit) / (2 * unit))

/-- The greatest sample of a layout. -/
def fullRange (layout : Layout) : Nat :=
  if layout.wide then 0xffff else 0xff

def sampleBytes (layout : Layout) (sample : Nat) : List UInt8 :=
  if layout.wide then [.ofNat (sample / 0x100), .ofNat sample] else [.ofNat sample]

def samplesOf (layout : Layout) : List UInt8 → List Nat
  | high :: low :: rest =>
    if layout.wide then (high.toNat * 0x100 + low.toNat) :: samplesOf layout rest
    else high.toNat :: samplesOf layout (low :: rest)
  | [last] => if layout.wide then [] else [last.toNat]
  | [] => []

/-- A raster with its samples scaled to the full range. -/
def scaled (greatest : Nat) (raster : Raster) : Raster :=
  let target := fullRange raster.layout
  if greatest = target then raster
  else
    { raster with
      samples := (samplesOf raster.layout raster.samples).flatMap fun sample =>
        sampleBytes raster.layout (scale greatest target sample) }

/-- So many samples in digits, each a word of its own. -/
def wordSamples? (layout : Layout) : Nat → List UInt8 → Option (List UInt8)
  | 0, _ => some []
  | count + 1, bytes => do
    let start := bytes.dropWhile isSeparator
    let word := start.takeWhile (!isSeparator ·)
    let rest := (start.dropWhile (!isSeparator ·)).drop 1
    let sample ← number? (fullRange layout + 1) (Bytes.characters word)
    return sampleBytes layout sample ++ (← wordSamples? layout count rest)

/-- So many bits in digits, which need no separators. One is black. -/
def bitSamples? : Nat → List UInt8 → Option (List UInt8)
  | 0, _ => some []
  | count + 1, bytes =>
    match bytes.dropWhile isSeparator with
    | 48 :: rest => (bitSamples? count rest).map (255 :: ·)
    | 49 :: rest => (bitSamples? count rest).map (0 :: ·)
    | _ => none

/-- The levels of so many rows of packed bits. Rows without columns hold nothing, however many. -/
def packedSamples? (width : Nat) : Nat → List UInt8 → Option (List UInt8)
  | 0, _ => some []
  | rows + 1, bytes =>
    if width = 0 then some []
    else do
      let size := (width + 7) / 8
      let row := bytes.take size
      if row.length < size then none
      let level (column : Nat) : UInt8 :=
        if ((row.getD (column / 8) 0).toNat.testBit (7 - column % 8)) then 0 else 255
      return (List.range width).map level ++ (← packedSamples? width rows (bytes.drop size))

/-- The picture after the magic of a format with a header of numbers. -/
def plain? (colored inDigits : Bool) (bytes : List UInt8) : Option Raster := do
  let (width, bytes) ← headerNumber? bytes
  let (height, bytes) ← headerNumber? bytes
  let (greatest, bytes) ← headerNumber? bytes
  if greatest = 0 ∨ 0x10000 ≤ greatest then none
  let layout : Layout := { colored, transparent := false, wide := 0x100 ≤ greatest }
  if inDigits then
    let samples ← wordSamples? layout (width * height * layout.channels) bytes
    return scaled greatest { layout, width, height, samples }
  else
    return scaled greatest (← Raster.ofBytes? layout width height bytes)

/-- The picture after the magic of a format for bits. -/
def bits? (inDigits : Bool) (bytes : List UInt8) : Option Raster := do
  let (width, bytes) ← headerNumber? bytes
  let (height, bytes) ← headerNumber? bytes
  let samples ← if inDigits then bitSamples? (width * height) bytes
    else packedSamples? width height bytes
  return { layout := ⟨false, false, false⟩, width, height, samples }

structure Lines where
  width? : Option Nat := none
  height? : Option Nat := none
  depth? : Option Nat := none
  greatest? : Option Nat := none
  kind? : Option String := none

/-- The value of a line that may stand once: a number, with an optional plus sign. -/
def once? (old : Option Nat) (value : List Char) : Option (Option Nat) :=
  let digits := match Text.trim value with
    | '+' :: digits => digits
    | digits => digits
  match old with
  | some _ => none
  | none => (number? headerBound digits).map some

def Lines.add? (lines : Lines) (word : String) (value : List Char) : Option Lines := do
  match word with
  | "WIDTH" => return { lines with width? := ← once? lines.width? value }
  | "HEIGHT" => return { lines with height? := ← once? lines.height? value }
  | "DEPTH" => return { lines with depth? := ← once? lines.depth? value }
  | "MAXVAL" => return { lines with greatest? := ← once? lines.greatest? value }
  | "TUPLTYPE" =>
    let kind := String.ofList (Text.trim value)
    return { lines with kind? := some (match lines.kind? with
      | none => kind
      | some old => old ++ " " ++ kind) }
  | _ => none

/-- Reads lines up to `ENDHDR`; at most as many as there are bytes. A line is text, and unless it is a
comment, it starts with a word, all in ASCII. -/
def lines? : Nat → List UInt8 → Lines → Option (Lines × List UInt8)
  | 0, _, _ => none
  | fuel + 1, bytes, lines => do
    if bytes = [] then none
    let line := bytes.takeWhile (· ≠ 10)
    let rest := (bytes.dropWhile (· ≠ 10)).drop 1
    if (Text.decodeUtf8? line).isNone then none
    else if line.head? = some 35 then lines? fuel rest lines
    else if line.any (128 ≤ ·) then none
    else
      let cs := Bytes.characters line
      let word := String.ofList (cs.takeWhile (!Text.isBlank ·))
      if word = "ENDHDR" then return (lines, rest)
      else lines? fuel rest (← lines.add? word (cs.dropWhile (!Text.isBlank ·)))

/-- What a header of lines says of the samples: their layout, and how large one may be. -/
structure SampleRule where
  layout : Layout
  limit : Nat
deriving DecidableEq

/-- The rule for samples of eight bits. -/
def SampleRule.narrow (colored transparent : Bool) : SampleRule where
  layout := { colored, transparent, wide := false }
  limit := 0xff

/-- The rule for a kind, a depth and a greatest sample. Without a kind the depth decides, and samples
have eight bits. Black and white have samples of eight bits, too, but only zero and one. Grey levels
of sixteen bits may have no depth. -/
def sampleRule? (kind? : Option String) (depth greatest : Nat) : Option SampleRule :=
  let bits (transparent : Bool) : Option SampleRule :=
    let rule : SampleRule := { SampleRule.narrow false transparent with limit := 1 }
    if depth = rule.layout.channels ∧ greatest = 1 then some rule else none
  let levels (colored transparent : Bool) : Option SampleRule :=
    let wide : Bool := 0x100 ≤ greatest
    let layout : Layout := { colored, transparent, wide }
    if depth = layout.channels ∧ greatest < 0x10000 then some { layout, limit := fullRange layout }
    else none
  match kind? with
  | none =>
    if depth = 1 then some (.narrow false false)
    else if depth = 2 then some (.narrow false true)
    else if depth = 3 then some (.narrow true false)
    else if depth = 4 then some (.narrow true true)
    else none
  | some "BLACKANDWHITE" => bits false
  | some "BLACKANDWHITE_ALPHA" => bits true
  | some "GRAYSCALE" =>
    if depth = 0 ∧ greatest < 0x10000 then some { layout := ⟨false, false, true⟩, limit := 0xffff }
    else levels false false
  | some "GRAYSCALE_ALPHA" => levels false true
  | some "RGB" => levels true false
  | some "RGB_ALPHA" => levels true true
  | some _ => none

/-- The picture after the magic of the format with a header of lines. -/
def lined? (bytes : List UInt8) : Option Raster := do
  match bytes with
  | 10 :: bytes =>
    let (lines, rest) ← lines? (bytes.length + 1) bytes {}
    let width ← lines.width?
    let height ← lines.height?
    let depth ← lines.depth?
    let greatest ← lines.greatest?
    if greatest = 0 then none
    let rule ← sampleRule? lines.kind? depth greatest
    let raster ← Raster.ofBytes? rule.layout width height rest
    if (samplesOf raster.layout raster.samples).any (rule.limit < ·) then none
    return scaled greatest raster
  | _ => none

def read? : List UInt8 → Option Raster
  | 80 :: 49 :: rest => bits? true rest
  | 80 :: 50 :: rest => plain? false true rest
  | 80 :: 51 :: rest => plain? true true rest
  | 80 :: 52 :: rest => bits? false rest
  | 80 :: 53 :: rest => plain? false false rest
  | 80 :: 54 :: rest => plain? true false rest
  | 80 :: 55 :: rest => lined? rest
  | _ => none

end Overprint.Netpbm
