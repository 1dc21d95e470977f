import Overprint.Number.Shortest

/-!
# Objects of a document

The values a document is made of. Names are written with one character per byte. A dictionary is the
list of its entries in the order in which they were made; a stream is a dictionary with data, and
how the data is packed in a file is not part of it.
-/

namespace Overprint.Pdf

open Number

/-- What an object is referred to by. -/
structure ObjectId where
  number : Nat
  generation : Nat
deriving DecidableEq, Repr

namespace ObjectId

instance : Ord ObjectId where
  compare := compareLex (compareOn ObjectId.number) (compareOn ObjectId.generation)

instance : Std.TransOrd ObjectId :=
  inferInstanceAs
    (Std.TransCmp (compareLex (compareOn ObjectId.number) (compareOn ObjectId.generation)))

instance : Std.LawfulEqOrd ObjectId where
  eq_of_compare {left right} heq := by
    have ⟨hnumber, hgeneration⟩ := compareLex_eq_eq.1 heq
    cases left
    cases right
    simp only [compareOn, Nat.compare_eq_eq] at hnumber hgeneration
    subst hnumber hgeneration
    rfl

end ObjectId

inductive Object where
  | null
  | boolean (value : Bool)
  | integer (value : Int)
  | real (value : Single)
  | name (word : String)
  | text (bytes : List UInt8)
  | hexText (bytes : List UInt8)
  | array (items : List Object)
  | dictionary (entries : List (String × Object))
  | stream (entries : List (String × Object)) (data : List UInt8)
  | reference (id : ObjectId)
deriving BEq

abbrev Dictionary := List (String × Object)

namespace Dictionary

def get? (key : String) : Dictionary → Option Object
  | [] => none
  | (other, value) :: rest => if other = key then some value else get? key rest

/-- The dictionary with a value at a key: in the place of the old one, or at the end. -/
def set (key : String) (value : Object) : Dictionary → Dictionary
  | [] => [(key, value)]
  | (other, old) :: rest =>
    if other = key then (key, value) :: rest else (other, old) :: set key value rest

theorem get?_set (key probe : String) (value : Object) (entries : Dictionary) :
    get? probe (set key value entries) =
      if key = probe then some value else get? probe entries := by
  induction entries with
  | nil => rfl
  | cons entry rest ih =>
    obtain ⟨other, old⟩ := entry
    by_cases hkey : other = key
    · subst hkey
      by_cases hprobe : other = probe <;> simp [set, get?, hprobe]
    · by_cases hprobe : other = probe
      · subst hprobe
        simp [set, get?, hkey, Ne.symm hkey]
      · simp [set, get?, hkey, hprobe, ih]

end Dictionary

namespace Object

instance : Inhabited Object := ⟨null⟩

/-- The kind of an object, as messages name it. -/
def kind : Object → String
  | null => "Null"
  | boolean _ => "Boolean"
  | integer _ => "Integer"
  | real _ => "Real"
  | name _ => "Name"
  | text _ | hexText _ => "String"
  | array _ => "Array"
  | dictionary _ => "Dictionary"
  | stream .. => "Stream"
  | reference _ => "Reference"

def toReference? : Object → Option ObjectId
  | reference id => some id
  | _ => none

def toDictionary? : Object → Option Dictionary
  | dictionary entries => some entries
  | _ => none

def toArray? : Object → Option (List Object)
  | array items => some items
  | _ => none

def toName? : Object → Option String
  | name word => some word
  | _ => none

def toNumber? : Object → Option Double
  | integer value => some (.ofInt value)
  | real value => some value.convert
  | _ => none

end Object

end Overprint.Pdf
