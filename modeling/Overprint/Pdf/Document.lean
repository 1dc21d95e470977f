import Overprint.Pdf.Object
import Overprint.SortedMap

/-!
# Documents

A document is a set of numbered objects with a dictionary that says where to start. Objects refer to
each other by number; a reference may lead to another one, so that following it takes steps. New
objects are numbered upward from the highest number in use.
-/

namespace Overprint.Pdf

structure Document where
  objects : SortedMap ObjectId Object
  trailer : Dictionary
  lastNumber : Nat

inductive Missing where
  | absent (id : ObjectId)
  | endless
deriving DecidableEq

namespace Document

/-- The document of a list of objects. Of two with the same number the later one counts. -/
def ofObjects (objects : List (ObjectId × Object)) (trailer : Dictionary) : Document where
  objects := .ofList objects
  trailer
  lastNumber := (objects.map (·.1.number)).foldl max 0

/-- How many references are followed before giving up. -/
def referenceLimit : Nat := 128

/-- Follows references from an object, so many at most. The place where they end is the object that
the last of them names. -/
def follow (document : Document) (place : Option ObjectId) (object : Object) (limit : Nat) :
    Except Missing (Option ObjectId × Object) :=
  match object with
  | .reference id =>
    match document.objects.get? id, limit with
    | none, _ => .error (.absent id)
    | some _, 0 => .error .endless
    | some next, limit + 1 => document.follow (some id) next limit
  | _ => .ok (place, object)

/-- The object that a number leads to, and where it is. -/
def locate (document : Document) (id : ObjectId) : Except Missing (ObjectId × Object) :=
  match document.objects.get? id with
  | none => .error (.absent id)
  | some object => do
    let (place, object) ← document.follow (some id) object referenceLimit
    return (place.getD id, object)

def object? (document : Document) (id : ObjectId) : Option Object :=
  match document.locate id with
  | .ok (_, object) => some object
  | .error _ => none

def dictionary? (document : Document) (id : ObjectId) : Option Dictionary :=
  (document.object? id).bind Object.toDictionary?

/-- The object that an object stands for. A reference that leads nowhere stands for itself. -/
def resolve (document : Document) (object : Object) : Object :=
  match object with
  | .reference id => (document.object? id).getD object
  | _ => object

/-- The object that an object stands for, unless it is a reference that leads nowhere. -/
def target? (document : Document) (object : Object) : Option Object :=
  match document.follow none object referenceLimit with
  | .ok (_, object) => some object
  | .error _ => none

def put (document : Document) (id : ObjectId) (object : Object) : Document :=
  { document with objects := document.objects.insert id object }

/-- A number that no object has yet. -/
def reserve (document : Document) : ObjectId × Document :=
  let number := document.lastNumber + 1
  (⟨number, 0⟩, { document with lastNumber := number })

def add (document : Document) (object : Object) : ObjectId × Document :=
  let (id, document) := document.reserve
  (id, document.put id object)

end Document

end Overprint.Pdf
