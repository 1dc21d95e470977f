import Overprint.Geometry.Frame
import Overprint.Pdf.Filter
import Overprint.Pdf.PageTree

/-!
# What a page says

The entries of a page's dictionary, its own and those it inherits from the nodes above it, its size,
its resources and its content.
-/

namespace Overprint.Pdf

open Overprint.Geometry Number

namespace Document

def inheritanceLimit : Nat := 64

/-- The value at a key of a dictionary, or else of the nearest node above that has the key, resolved.
So many dictionaries are looked through. -/
def inheritedFrom? (document : Document) (key : String) (node : Dictionary) : Nat → Option Object
  | 0 => none
  | limit + 1 =>
    match Dictionary.get? key node with
    | some value => some (document.resolve value)
    | none =>
      match Dictionary.get? "Parent" node with
      | some (.reference parent) => do
        document.inheritedFrom? key (← document.dictionary? parent) limit
      | _ => none

/-- The value of a page at a key, its own or inherited. -/
def inherited? (document : Document) (page : ObjectId) (key : String) : Option Object := do
  document.inheritedFrom? key (← document.dictionary? page) inheritanceLimit

/-- The corners of the box of a page, if it has a usable one. -/
def mediaBox? (document : Document) (page : ObjectId) :
    Option (Double × Double × Double × Double) := do
  let items ← (← document.inherited? page "MediaBox").toArray?
  match ← items.mapM fun item => (document.resolve item).toNumber? with
  | [left, bottom, right, top] => some (left, bottom, right, top)
  | _ => none

/-- The size of a page without a usable box. -/
def fallbackSize : Frame Double where
  width := 612.0
  height := 792.0

def pageSize (document : Document) (page : ObjectId) : Frame Double :=
  match document.mediaBox? page with
  | some (left, bottom, right, top) => ⟨(right - left).abs, (top - bottom).abs⟩
  | none => fallbackSize

def resources (document : Document) (page : ObjectId) : Dictionary :=
  ((document.inherited? page "Resources").bind Object.toDictionary?).getD []

/-- What the content of a page consists of, as its entry lists it. -/
def contentEntries (document : Document) (page : ObjectId) : List Object :=
  match (document.dictionary? page).bind (Dictionary.get? "Contents") with
  | some (.array items) => items
  | some (.reference id) =>
    match document.object? id with
    | some (.array items) => items
    | _ => [.reference id]
  | _ => []

/-- The streams that an entry for content names, following so many references. One that leads
nowhere counts as a stream. -/
def streamsOf (document : Document) (entry : Object) : Nat → List ObjectId
  | 0 => []
  | limit + 1 =>
    match entry with
    | .reference id =>
      match document.objects.get? id with
      | none => [id]
      | some (.stream ..) => [id]
      | some next => document.streamsOf next limit
    | .array items => items.filterMap Object.toReference?
    | _ => []

def streamData (document : Document) (id : ObjectId) : List UInt8 :=
  match document.object? id with
  | some (.stream entries data) => plainData entries data
  | _ => []

/-- The content of a page: its streams one after the other. -/
def pageContent (document : Document) (page : ObjectId) : List UInt8 :=
  match (document.dictionary? page).bind (Dictionary.get? "Contents") with
  | some entry => (document.streamsOf entry referenceLimit).flatMap document.streamData
  | none => []

end Document

end Overprint.Pdf
