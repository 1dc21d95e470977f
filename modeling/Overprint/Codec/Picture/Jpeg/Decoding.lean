import Overprint.Codec.Picture.Jpeg.Coded

/-!
# Whether a JPEG file can be decoded

The data of a picture is read as far as it takes to tell whether there is a fault in it. In one pass,
every string of bits has to stand for a symbol. With several scans that refine each other, a fault in
the data only ends the reading. Segments between and behind the scans have to be well formed if the
reading comes to them.
-/

namespace Overprint.Jpeg

namespace Header

section Geometry

variable (header : Header) (frame : Frame)

/-- The number of blocks of a component in a unit, side by side and one below the other. Grey pictures
have no more than one. -/
def factors (component : Component) : Nat × Nat :=
  if header.isGrey then (1, 1) else (component.across, component.down)

/-- The numbers of blocks of that component which has the most of them. -/
def largest : Nat × Nat :=
  frame.components.foldl
    (fun (across, down) component =>
      let (a, d) := header.factors component
      (max across a, max down d)) (1, 1)

/-- How many squares of so many blocks cover the frame. -/
def cover (across down : Nat) : Nat :=
  ((frame.width + 8 * across - 1) / (8 * across)) * ((frame.height + 8 * down - 1) / (8 * down))

/-- The number of units that have blocks of several components. -/
def unitCount : Nat :=
  let (across, down) := header.largest frame
  cover frame across down

/-- The number of blocks in a scan of a single component. -/
def blockCount (component : Component) : Nat :=
  if header.factors component = (1, 1) then header.unitCount frame else cover frame 1 1

def forBlocks (component : Component) (block : CodedReader Unit) : CodedReader Unit :=
  let (across, down) := header.factors component
  (List.range (across * down)).forM fun _ => block

end Geometry

section Reading

variable (header : Header) (frame : Frame) (data : ByteArray) (place : Nat)

def scanned? : Option (List Component) := do
  (← header.scan?).members.mapM (frame.components[·]?)

def passage? : Option Passage := do
  let readers ← (← header.scanned? frame).mapM fun component => do
    let block := CodedReader.block (← header.code? .direct component.direct)
      (← header.code? .alternating component.alternating)
    return header.forBlocks component block
  Passage.read? (readers.forM id) header.interval data (data.size + 1) (header.unitCount frame) place

/-- Reads one of several scans: first coefficients of one or more components, or a range of the others
of a single one. A range that refines an earlier scan is taken as it is. -/
def refiningPassage? : Option Passage := do
  let scan ← header.scan?
  let components ← header.scanned? frame
  if header.colorCount frame < components.length then none
  let direct (component : Component) : Option (CodedReader Unit) :=
    (header.code? .direct component.direct).map fun code =>
      if scan.missing = 0 then .direct code else .refinement
  match components with
  | [component] =>
    if scan.first = 0 ∧ scan.last ≠ 0 then none
    if scan.first ≠ 0 ∧ scan.missing ≠ 0 then
      return ⟨(Stretch.read data place).ending?, true⟩
    let range := (header.code? .alternating component.alternating).map fun code =>
      CodedReader.range code scan.first scan.last
    let unit ← if scan.first = 0 then direct component else range
    Passage.read? unit header.interval data (data.size + 1) (header.blockCount frame component) place
  | _ =>
    if scan.last ≠ 0 then none
    let readers ← components.mapM fun component => do
      return header.forBlocks component (← direct component)
    Passage.read? (readers.forM id) header.interval data (data.size + 1) (header.unitCount frame) place

end Reading

section Decoding

variable (data : ByteArray)

/-- Whether the scans from a place on can be decoded, each in one pass; at most so many. A scan of all
components is the last one. -/
def decodesScans (header : Header) : (bound place : Nat) → Option Unit
  | 0, _ => some ()
  | bound + 1, place => do
    let frame ← header.frame?
    let passage ← header.passage? frame data place
    if !passage.noticed then return
    let some (marker, next) := passage.ending? | return
    match Segment.ofMarker marker with
    | .finish | .restart => return
    | .unknown => none
    | segment =>
      let (following, next) ← header.add? segment data next
      let whole := (← header.scan?).members.length = frame.components.length
      if segment = .scan ∧ !whole then following.decodesScans bound next

def scanLimit : Nat := 100

/-- Whether what comes behind a scan can be decoded, from a marker on; at most so many segments, and so
many scans. -/
def decodesSegments (header : Header) : (bound scans : Nat) → (ending? : Option (Nat × Nat)) → Option Unit
  | 0, _, _ => some ()
  | bound + 1, scans, ending? => do
    let some (marker, next) := ending? | return
    match Segment.ofMarker marker with
    | .finish | .unknown => return
    | .restart => header.decodesSegments bound scans (Stretch.read data next).ending?
    | segment =>
      let (following, next) ← header.add? segment data next
      if segment = .scan then
        let frame ← following.frame?
        let some passage := following.refiningPassage? frame data next | return
        let some ending := passage.ending? | return
        if Segment.ofMarker ending.1 = .unknown then return
        if scanLimit ≤ scans then none
        following.decodesSegments bound (scans + 1) (some ending)
      else following.decodesSegments bound scans (Stretch.read data next).ending?

/-- Whether a picture can be decoded whose first scan starts at a place. -/
def decodes (header : Header) (place : Nat) : Option Unit := do
  let frame ← header.frame?
  if !frame.components.all (header.divisors.contains ·.divisors) then none
  if frame.progressive then
    if frame.components.length < header.colorCount frame then none
    let some passage := header.refiningPassage? frame data place | return
    if !passage.noticed then none
    let ending ← passage.ending?
    header.decodesSegments data data.size 1 (some ending)
  else
    let known (component : Component) : Bool :=
      (header.code? .direct component.direct).isSome &&
        (header.code? .alternating component.alternating).isSome
    if !frame.components.all known then none
    header.decodesScans data data.size place

end Decoding

end Header

end Overprint.Jpeg
