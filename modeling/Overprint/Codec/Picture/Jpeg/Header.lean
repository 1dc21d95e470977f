import Overprint.Codec.Picture.Jpeg.FilmCode

/-!
# Headers of JPEG files

What is known of a picture before its data: the frame with its components, the tables that were
defined, how the samples stand for colours, and which components the scan has. Each segment of the file
adds to it, and a segment that is malformed ends the reading.
-/

namespace Overprint.Jpeg

open Bytes

/-- A component of a frame: its name, how many of its blocks lie side by side and one below the other
in a unit, the position of its divisors, and those of its codes. -/
structure Component where
  id : Nat
  across : Nat
  down : Nat
  divisors : Nat
  direct : Nat := 0
  alternating : Nat := 0
deriving DecidableEq

/-- How the samples of a pixel stand for its colour. -/
inductive ColorModel where
  | grey
  | luminance
  | inks
  | luminanceAndInk
deriving DecidableEq

/-- A frame: its size in pixels, its components, and whether several scans refine it. -/
structure Frame where
  width : Nat
  height : Nat
  components : List Component
  progressive : Bool
deriving DecidableEq

/-- What a scan says of itself: the places of its components in the frame, the range of coefficients,
and how many of their bits earlier scans left out, zero for the first scan of a range. -/
structure Scan where
  members : List Nat
  first : Nat
  last : Nat
  missing : Nat
deriving DecidableEq

structure Header where
  frame? : Option Frame := none
  divisors : List Nat := []
  codes : List ((CodeUse × Nat) × BitCode) := []
  film : Bool := false
  interval : Nat := 0
  colors : ColorModel := .luminance
  scan? : Option Scan := none
deriving DecidableEq

inductive Segment where
  | frame (progressive : Bool)
  | codes
  | divisors
  | interval
  | scan
  | film
  | application (announcements : List (String × Nat))
  | colors
  | restart
  | finish
  | refused
  | remark
  | unknown
deriving DecidableEq

namespace Segment

/-- How the data of some applications starts, and how long it is at least. -/
def properties : List (String × Nat) :=
  [("Exif\x00\x00", 0), ("http://ns.adobe.com/xap/1.0/\x00", 0),
    ("http://ns.adobe.com/xmp/extension/\x00", 75)]

def profile : List (String × Nat) :=
  [("ICC_PROFILE\x00", 0)]

def caption : List (String × Nat) :=
  [("Photoshop 3.0", 0)]

/-- The segment of a marker. Arithmetic codes and numbers of lines are refused. -/
def ofMarker (marker : Nat) : Segment :=
  match marker with
  | 0xc0 | 0xc1 => frame false
  | 0xc2 => frame true
  | 0xc4 => codes
  | 0xcc | 0xdc => refused
  | 0xd8 | 0xfe => remark
  | 0xd9 => finish
  | 0xda => scan
  | 0xdb => divisors
  | 0xdd => interval
  | 0xe0 => film
  | 0xe1 => application properties
  | 0xe2 => application profile
  | 0xed => application caption
  | 0xee => colors
  | _ => if 0xd0 ≤ marker ∧ marker ≤ 0xd7 then restart else unknown

end Segment

namespace Header

/-- The component that a frame lists at a place. Its numbers of blocks are powers of two. -/
def component? (body : ByteArray) (start : Nat) : Option Component := do
  let id ← byte? body start
  let (across, down) := halves (← byte? body (start + 1))
  let divisors ← byte? body (start + 2)
  let factors := [1, 2, 4, 8]
  if across ∉ factors ∨ down ∉ factors ∨ tableLimit ≤ divisors then none
  return { id, across, down, divisors }

def componentLimit : Nat := 4

/-- Takes up a frame, of which there is one, with samples of eight bits. -/
def addFrame? (header : Header) (progressive : Bool) (body : ByteArray) : Option Header := do
  if header.frame?.isSome then none
  let precision ← byte? body 0
  let height ← word16? body 1
  let width ← word16? body 3
  let count ← byte? body 5
  if precision ≠ 8 ∨ width = 0 ∨ height = 0 ∨ count = 0 ∨ componentLimit < count ∨
      body.size ≠ 6 + 3 * count then none
  let components ← (List.range count).mapM fun index => component? body (6 + 3 * index)
  let colors :=
    if count = 1 then .grey
    else if count = 4 ∧ header.colors = .luminance then .inks
    else header.colors
  return { header with frame? := some { width, height, components, progressive }, colors }

/-- Whether a text stands at a place, if there are bytes enough. -/
def says? (data : ByteArray) (start : Nat) (text : String) : Option Bool := do
  let bytes ← slice? data start text.length
  return characters bytes.toList = text.toList

/-- Takes up that the picture comes from a film. Its name is read if the segment is longer than it. -/
def addFilm? (header : Header) (data : ByteArray) (start length : Nat) : Option (Header × Nat) := do
  let name := "AVI1\x00"
  if length ≤ name.length then return (header, start + (length - 2))
  let film ← says? data start name
  return ({ header with film := header.film || film }, start + max name.length (length - 2))

/-- Whether the data of an application that starts in one of some ways is there and long enough. -/
def announced? (data : ByteArray) (start size : Nat) : List (String × Nat) → Option Unit
  | [] => some ()
  | (text, least) :: rest => do
    if size ≤ text.length then announced? data start size rest
    else if ← says? data start text then
      if size < least ∨ data.size < start + size then none
    else announced? data start size rest

/-- The least size of what is said of the colours. -/
def colorsSize : Nat := 12

/-- Takes up what the application with the given name says of the colours. What other applications
say is passed over. -/
def addColors? (header : Header) (data : ByteArray) (start size : Nat) : Option Header := do
  if size < colorsSize then none
  if says? data start "Adobe" ≠ some true then return header
  match ← byte? data (start + 11) with
  | 0 => return { header with colors := .inks }
  | 1 => return { header with colors := .luminance }
  | 2 => return { header with colors := .luminanceAndInk }
  | _ => none

def lastCoefficient : Nat := 63

/-- The largest number of bits that a scan leaves to later ones. -/
def lastBit : Nat := 13

/-- Takes up the start of a scan, which names some of the components, each once, and their codes. -/
def addScan? (header : Header) (body : ByteArray) : Option Header := do
  let frame ← header.frame?
  let count ← byte? body 0
  if count = 0 ∨ componentLimit < count ∨ body.size ≠ 4 + 2 * count then none
  let entries ← (List.range count).mapM fun index => do
    return (← byte? body (1 + 2 * index), ← byte? body (2 + 2 * index))
  if !(entries.map (·.1)).Nodup then none
  let members ← entries.mapM fun (id, _) => frame.components.findIdx? (·.id = id)
  let components := (members.zip entries).foldl
    (fun components (member, _, codes) =>
      let (direct, alternating) := halves codes
      components.modify member ({ · with direct, alternating })) frame.components
  let first ← byte? body (1 + 2 * count)
  let last ← byte? body (2 + 2 * count)
  let (missing, left) := halves (← byte? body (3 + 2 * count))
  if lastCoefficient < first ∨ lastCoefficient < last ∨ lastBit < missing ∨ lastBit < left then none
  return { header with
    frame? := some { frame with components }
    scan? := some { members, first, last, missing } }

/-- Takes up a segment that starts at a place, and gives the place behind it. What is not looked at
need not be there. -/
def add? (header : Header) (segment : Segment) (data : ByteArray) (place : Nat) :
    Option (Header × Nat) := do
  let length ← word16? data place
  if length < 2 then none
  let start := place + 2
  let size := length - 2
  let body? := slice? data start size
  let stop := start + size
  match segment with
  | .frame progressive => return (← header.addFrame? progressive (← body?), stop)
  | .codes =>
    return ({ header with codes := (← codes? (← body?) (size + 1) 0).reverse ++ header.codes }, stop)
  | .divisors =>
    return ({ header with divisors := (← divisors? (← body?) (size + 1) 0) ++ header.divisors }, stop)
  | .interval =>
    if size ≠ 2 then none
    return ({ header with interval := ← word16? data start }, stop)
  | .scan => return (← header.addScan? (← body?), stop)
  | .film => header.addFilm? data start length
  | .application announcements =>
    announced? data start size announcements
    return (header, stop)
  | .colors => return (← header.addColors? data start size, stop)
  | .restart | .remark | .unknown => return (header, stop)
  | .finish | .refused => none

/-- The code for a use at a position: the last one that was defined there, or one of films. -/
def code? (header : Header) (use : CodeUse) (position : Nat) : Option BitCode :=
  header.codes.lookup (use, position) <|>
    if header.film then filmCode? use position else none

/-- Whether the samples are only about how light a pixel is. -/
def isGrey (header : Header) : Bool :=
  header.colors = .grey

/-- How many components the colours take. Three components that are said to be inks are red, green and
blue. -/
def colorCount (header : Header) (frame : Frame) : Nat :=
  match header.colors with
  | .grey => 1
  | .luminance => 3
  | .inks => if frame.components.length = 3 then 3 else 4
  | .luminanceAndInk => 4

end Header

end Overprint.Jpeg
